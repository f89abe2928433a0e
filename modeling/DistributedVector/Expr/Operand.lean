import DistributedVector.Expr.Basic

/-!
# Operands

Expressions are written with vectors, host values and linear operators as operands. Lifting turns
an operand into an expression or says why that is impossible; operators and calls lift their
operands and build a node.

## Main definitions

* `HostValue`, `Operand`
* `HostValue.terminal` — a host value as a scalar leaf
* `Operand.expr` — an operand as an expression
* `Operand.unary`, `Operand.binary`, `Operand.call`
-/

namespace DistributedVector

/-- A value of the host program. -/
inductive HostValue
  | int (n : Int)
  | float (x : Float)
  /-- a number of a given data type -/
  | typed (type : DataType) (x : Scalar)
  | bool (b : Bool)
  | text (s : String)
  /-- a text that brings a data type of its own -/
  | typedText (s : String)
  /-- bytes, which may bring a data type of their own -/
  | bytes (b : ByteString) (own : Bool)
  | nothing
  | emptyList
  | complex

namespace HostValue

/-- The name of the value's type in messages. -/
def typeName : HostValue → String
  | int _ => "int"
  | float _ => "float"
  | typed t _ => t.name
  | bool _ => "bool"
  | text _ => "str"
  | typedText s => DataType.name (.foreign (.text s.length))
  | bytes b own => if own then DataType.name (.foreign (.bytes b.length)) else "bytes"
  | nothing => "NoneType"
  | emptyList => "list"
  | complex => "complex"

/-- A number in a data type of its own; among objects it is plain. -/
def ofType (type : DataType) (x : Scalar) : Except NumberFault HostValue := do
  match type, x with
  | .foreign .object, .int n => return int n
  | .foreign .object, .float x => return float x
  | .foreign (.text _), x => return typedText x.text
  | .foreign (.bytes _), x => return bytes (.ofScalar x) true
  | type, x =>
    let (type, x) ← type.single x
    return typed type x

/-- A host value as a scalar leaf: integers are 64 bits wide, floating-point numbers are doubles,
typed numbers keep their type, and everything else is refused. -/
def terminal : HostValue → Except ExprFault (Scalar × DataType)
  | int n => .ok (.int n, .element .int64)
  | float x => .ok (.float x, .element .float64)
  | typed t x =>
    if t = .foreign .boolean then .error .booleanScalar
    else if t.isSupported then .ok (x, t)
    else .error (.unsupportedScalar t.name)
  | bool _ => .error .booleanScalar
  | v => .error (.unsupportedScalar v.typeName)

/-- A sign or complement of a number of a type: numbers that are no integers have no complement,
and truth values nothing else. -/
def unaryTyped (op : UnaryOp) (type : DataType) (x : Scalar) : Option Scalar :=
  match type, x with
  | .foreign .boolean, x =>
    if op = .invert then some (.int (if x.isNonzero then 0 else 1)) else none
  | .element t, .int n => some (.int (t.wrap (op.ofInt n)))
  | .element _, .float x | .foreign .half, .float x | .foreign .complex64, .float x
  | .foreign .complex128, .float x => (op.ofFloat? x).map .float
  | .foreign .unitless, .int n =>
    if op = .invert then none else some (.int (ElementType.int64.wrap (op.ofInt n)))
  | _, _ => none

/-- A sign or complement of a host value, if it has one. -/
def unary? (op : UnaryOp) : HostValue → Option HostValue
  | int n => some (int (op.ofInt n))
  | bool b => some (int (op.ofInt (if b then 1 else 0)))
  | float x => (op.ofFloat? x).map float
  | typed t x => (unaryTyped op t x).map (typed t)
  | complex => if op = .invert then none else some complex
  | text _ | typedText _ | bytes .. | nothing | emptyList => none

/-- Whether the value counts as a single number or text, rather than as a collection. -/
def isSingle : HostValue → Bool
  | nothing | emptyList => false
  | _ => true

end HostValue

/-- What an operator or a function of expressions is applied to. -/
inductive Operand (ν : Type)
  | vector (v : ν)
  | expr (e : Expr ν)
  | host (x : HostValue)
  | operator (a : LinearOperator)

namespace Operand

variable {ν : Type}

/-- The name of the operand's type in messages. -/
def typeName : Operand ν → String
  | vector _ => "LogicalVector"
  | expr e => e.kindName
  | host x => x.typeName
  | operator _ => "LinearOp"

/-- Replaces the vectors of an operand. -/
def map {μ : Type} (f : ν → μ) : Operand ν → Operand μ
  | vector v => vector (f v)
  | expr e => expr (e.map f)
  | host x => host x
  | operator a => operator a

/-- The operand as a scalar leaf, which only host values can be. -/
def terminal : Operand ν → Except ExprFault (Scalar × DataType)
  | host x => x.terminal
  | x => .error (.unsupportedScalar x.typeName)

/-- The operand as an expression. -/
def toExpr : Operand ν → Except ExprFault (Expr ν)
  | vector v => .ok (.vector v)
  | expr e => .ok e
  | host x => x.terminal.map fun t => .scalar t.1 t.2
  | x => .error (.unsupportedScalar x.typeName)

/-- Whether the operand is a vector or an expression, which know the arithmetic operators. -/
def isExpr : Operand ν → Bool
  | vector _ | expr _ => true
  | _ => false

/-- A unary operator applied to an operand. -/
def unary (op : UnaryOp) : Operand ν → Except ExprFault (Operand ν)
  | vector v => .ok (expr (.unary op.tag (.vector v)))
  | expr e => .ok (expr (.unary op.tag e))
  | host x =>
    match x.unary? op with
    | some y => .ok (host y)
    | none => .error .rejectedOperands
  | operator _ => .error .rejectedOperands

/-- A binary operator applied to operands. A linear operator multiplies vectors from the left and
knows nothing else; otherwise one side has to be a vector or an expression and the other has to
lift to one. -/
def binary (op : BinaryOp) (l r : Operand ν) : Except ExprFault (Operand ν) :=
  match l, r with
  | operator a, vector v =>
    if op = .mul then .ok (expr (.product a v)) else .error .rejectedOperands
  | operator a, expr (.vector v) =>
    if op = .mul then .ok (expr (.product a v)) else .error .rejectedOperands
  | operator _, expr _ => .error (if op = .mul then .productOperand else .rejectedOperands)
  | operator _, _ => .error .rejectedOperands
  | l, r => if l.isExpr || r.isExpr then lifted l r else .error .rejectedOperands
where
  /-- The node over both lifted operands. -/
  lifted (l r : Operand ν) : Except ExprFault (Operand ν) :=
    match l.toExpr, r.toExpr with
    | .ok l, .ok r => .ok (expr (.binary op.tag l r))
    | _, _ => .error .rejectedOperands

/-- A function applied to operands. The number of arguments is checked before they are lifted. -/
def call (f : Function) (args : List (Operand ν)) : Except ExprFault (Operand ν) := do
  unless args.length = f.arity do throw (.arity f.name f.arity args.length)
  return expr (.call f (← args.mapM toExpr))

end Operand

end DistributedVector
