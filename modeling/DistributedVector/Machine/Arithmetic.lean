import DistributedVector.Element.Scalar
import DistributedVector.Kernel.Reading

/-!
# Arithmetic of kernels

What the operators and functions in a kernel mean depends on the device. An `Arithmetic` says how
buffer contents become values, how values are computed and how a value is stored; what a kernel
computes at an index is defined by its text, over any arithmetic. A call means a function if the
name in the text means it and nothing else.

The *wide* arithmetic computes with 64-bit integers and doubles only. Functions other than the
elementary exact ones are stood for by the sum of their arguments.

## Main definitions

* `Arithmetic` — what operators and functions mean
* `KernelText.value`, `Arithmetic.compute` — what the text of a kernel computes at an index
* `Arithmetic.wide` — arithmetic on 64-bit integers and doubles
-/

namespace DistributedVector

/-- The meaning of operators and functions over values of type `V`. -/
structure Arithmetic (V : Type) where
  load : ElementType → Scalar → V
  unary : UnaryOp → V → V
  binary : BinaryOp → V → V → V
  call : Callee → List V → V
  /-- a call by a name that may mean several functions, or something else -/
  unclear : String → List (Meaning Callee) → List V → V
  /-- a text that cannot be read, over the values of the arguments -/
  unread : String → List V → V
  store : ElementType → V → Scalar

variable {V : Type}

/-- A call by a name, given what the name can mean. -/
def Arithmetic.callNamed (A : Arithmetic V) (name : String) : List (Meaning Callee) → List V → V
  | [.function g], args => A.call g args
  | found, args => A.unclear name found args

namespace Reading

mutual

/-- The value of a term, given those of its leaves and what names can mean. -/
def value (A : Arithmetic V) (leaf : Mention → Option V) (means : String → List (Meaning Callee)) :
    Reading Mention → Option V
  | .leaf m => leaf m
  | unary op t => do return A.unary op (← t.value A leaf means)
  | binary op l r => do return A.binary op (← l.value A leaf means) (← r.value A leaf means)
  | call name args => do return A.callNamed name (means name) (← values A leaf means args)

/-- The values of arguments. -/
def values (A : Arithmetic V) (leaf : Mention → Option V) (means : String → List (Meaning Callee)) :
    List (Reading Mention) → Option (List V)
  | [] => some []
  | t :: rest => do return (← t.value A leaf means) :: (← values A leaf means rest)

end

end Reading

namespace KernelText

/-- The value of a parameter, given those of all. -/
def argument? (k : KernelText) (args : List V) (m : Mention) : Option V :=
  (k.parameters.idxOf? m).bind (args[·]?)

/-- What a kernel stores at an index, given the values of its parameters there. -/
def value (A : Arithmetic V) (k : KernelText) (args : List V) : Option V :=
  k.term.value A (k.argument? args) (meanings · k.scopes)

end KernelText

namespace Arithmetic

/-- What a kernel that has been read, or has not, computes at an index. -/
def computeRead (A : Arithmetic V) (text : String) (k : Option KernelText) (args : List V) : V :=
  (k.bind (·.value A args)).getD (A.unread text args)

/-- What the text of a kernel computes at an index, given the values of the arguments there. -/
def compute (A : Arithmetic V) (text : String) (args : List V) : V :=
  A.computeRead text (KernelText.read text) args

end Arithmetic

namespace Arithmetic.Wide

/-- The integer congruent to `n` in the signed 64-bit range. -/
def wrap (n : Int) : Int := ElementType.int64.wrap n

/-- Contents as a value: integers are taken as signed 64-bit integers. -/
def load (_ : ElementType) : Scalar → Scalar
  | .int n => .int (wrap n)
  | .float x => .float x

/-- Signs and complement; a complement of a double is no number. -/
def unary (op : UnaryOp) : Scalar → Scalar
  | .int n => .int (wrap (op.ofInt n))
  | .float x => .float ((op.ofFloat? x).getD (0 / 0))

/-- Operators on integers: wrapped to 64 bits, quotients toward zero and zero for a zero divisor,
shifts by less than 0 or more than 63 places give zero. -/
def integer (op : BinaryOp) (a b : Int) : Int :=
  match op with
  | .add => wrap (a + b)
  | .sub => wrap (a - b)
  | .mul => wrap (a * b)
  | .div => if b = 0 then 0 else wrap (a.tdiv b)
  | .mod => if b = 0 then 0 else a.tmod b
  | .and => (Int64.ofInt a &&& Int64.ofInt b).toInt
  | .or => (Int64.ofInt a ||| Int64.ofInt b).toInt
  | .xor => (Int64.ofInt a ^^^ Int64.ofInt b).toInt
  | .lshift => if 0 ≤ b ∧ b < 64 then wrap (a * Nat.pow 2 b.toNat) else 0
  | .rshift => if 0 ≤ b ∧ b < 64 then a.fdiv (Nat.pow 2 b.toNat) else 0

/-- Operators on doubles; only the four arithmetic ones give numbers. -/
def double (op : BinaryOp) (a b : Float) : Float :=
  match op with
  | .add => a + b
  | .sub => a - b
  | .mul => a * b
  | .div => a / b
  | _ => 0 / 0

/-- Operators on values: on integers if both are integers, on doubles otherwise. -/
def binary (op : BinaryOp) : Scalar → Scalar → Scalar
  | .int a, .int b => .int (integer op a b)
  | a, b => .float (double op a.toFloat b.toFloat)

/-- The sum of arguments, as doubles. -/
def sum (args : List Scalar) : Scalar := .float ((args.map Scalar.toFloat).foldl (· + ·) 0)

/-- Functions on doubles. -/
def call (g : Callee) (args : List Scalar) : Scalar :=
  match g, args.map Scalar.toFloat with
  | .builtin .fabs, [a] => .float a.abs
  | .builtin .floor, [a] => .float a.floor
  | .builtin .ceil, [a] => .float a.ceil
  | .builtin .sqrt, [a] => .float a.sqrt
  | .builtin .rsqrt, [a] => .float (1 / a.sqrt)
  | .builtin .fmin, [a, b] =>
    .float (if a.isNaN then b else if b.isNaN then a else if a ≤ b then a else b)
  | .builtin .fmax, [a, b] =>
    .float (if a.isNaN then b else if b.isNaN then a else if b ≤ a then a else b)
  | _, _ => sum args

/-- Stores a value: into floating-point types as a double rounded to the type, into integer types
as the truncated double, or zero beyond the signed 64-bit range, wrapped to the type. -/
def store (t : ElementType) (v : Scalar) : Scalar :=
  if t.isFloat then .float (t.round v.toFloat)
  else
    match v with
    | .int n => .int (t.wrap n)
    | .float x =>
      match Binary64.truncate? x with
      | some n => .int (if ElementType.int64.InRange n then t.wrap n else 0)
      | none => .int 0

end Arithmetic.Wide

/-- Arithmetic on signed 64-bit integers and doubles. -/
def Arithmetic.wide : Arithmetic Scalar where
  load := Wide.load
  unary := Wide.unary
  binary := Wide.binary
  call := Wide.call
  unclear _ _ := Wide.sum
  unread _ := Wide.sum
  store := Wide.store

end DistributedVector
