import DistributedVector.Element.Text
import DistributedVector.Expr.Function

/-!
# Expressions over vectors

An expression is a tree of vectors, scalars, operators, function calls and products of external
linear operators with vectors. A *formula* is an expression without products; kernels evaluate
formulas, products are split off before.

Trees are built over any type of vector references. Operator tags in trees are arbitrary texts:
that a tag names an operator of the right kind is checked when a kernel is generated.

## Main definitions

* `LinearOperator` — an operator that maps vectors to vectors, supplied from outside
* `Expr`, `Formula` — expressions with and without products
* `Expr.formula?` — the expression as a formula, if no product occurs in it
* `Terminal`, `Formula.terminals` — leaves in depth-first order, one for each occurrence
-/

namespace DistributedVector

/-- A linear operator of the given shape. `apply alpha x n` is `alpha` times the image of `x`, as
`n` doubles; `none` if an entry that it needs is missing from `x`. -/
structure LinearOperator where
  name : String
  rows : Int
  cols : Int
  apply : Float → Array Float → Nat → Option (Array Float)

/-- The operator that scales entry by entry. Entries beyond the diagonal are zero. -/
def LinearOperator.diagonal (name : String) (rows cols : Int) (diag : Array Float) :
    LinearOperator where
  name := name
  rows := rows
  cols := cols
  apply alpha x n := (Array.range n).mapM fun i =>
    match diag[i]? with
    | none => some 0
    | some d => x[i]?.map fun xi => (alpha * d) * xi

/-- A leaf of an expression. -/
inductive Terminal (ν : Type)
  | vector (v : ν)
  | scalar (value : Scalar) (type : DataType)

/-- Expressions without products. -/
inductive Formula (ν : Type)
  | vector (v : ν)
  | scalar (value : Scalar) (type : DataType)
  | unary (tag : String) (operand : Formula ν)
  | binary (tag : String) (left right : Formula ν)
  | call (function : Function) (args : List (Formula ν))

/-- Expressions. -/
inductive Expr (ν : Type)
  | vector (v : ν)
  | scalar (value : Scalar) (type : DataType)
  | unary (tag : String) (operand : Expr ν)
  | binary (tag : String) (left right : Expr ν)
  | call (function : Function) (args : List (Expr ν))
  | product (operator : LinearOperator) (v : ν)

namespace Formula

variable {ν μ : Type}

mutual

/-- Replaces the vectors of a formula. -/
def map (f : ν → μ) : Formula ν → Formula μ
  | vector v => vector (f v)
  | scalar x t => scalar x t
  | unary tag e => unary tag (e.map f)
  | binary tag l r => binary tag (l.map f) (r.map f)
  | call g args => call g (mapArgs f args)

/-- Replaces the vectors of arguments. -/
def mapArgs (f : ν → μ) : List (Formula ν) → List (Formula μ)
  | [] => []
  | e :: rest => e.map f :: mapArgs f rest

end

mutual

/-- The leaves in depth-first order from left to right, one for each occurrence. -/
def terminals : Formula ν → List (Terminal ν)
  | vector v => [.vector v]
  | scalar x t => [.scalar x t]
  | unary _ e => e.terminals
  | binary _ l r => l.terminals ++ r.terminals
  | call _ args => terminalsOfArgs args

/-- The leaves of arguments. -/
def terminalsOfArgs : List (Formula ν) → List (Terminal ν)
  | [] => []
  | e :: rest => e.terminals ++ terminalsOfArgs rest

end

/-- The vectors of a formula, one for each occurrence. -/
def vectors (e : Formula ν) : List ν :=
  e.terminals.filterMap fun
    | .vector v => some v
    | .scalar _ _ => none

mutual

/-- Calls of user functions in the order in which they are completed: arguments first. -/
def userCalls : Formula ν → List UserFunction
  | vector _ | scalar _ _ => []
  | unary _ e => e.userCalls
  | binary _ l r => l.userCalls ++ r.userCalls
  | call g args => userCallsOfArgs args ++ g.user?.toList

/-- Calls of user functions in arguments. -/
def userCallsOfArgs : List (Formula ν) → List UserFunction
  | [] => []
  | e :: rest => e.userCalls ++ userCallsOfArgs rest

end

/-- Keeps the first occurrence of each function, by key. -/
def distinct : List UserFunction → List UserFunction
  | [] => []
  | f :: rest => f :: (distinct rest).filter (·.key ≠ f.key)

/-- The distinct user functions of a formula, by first completed call. -/
def userFunctions (e : Formula ν) : List UserFunction := distinct e.userCalls

theorem userCallsOfArgs_eq_flatMap (args : List (Formula ν)) :
    userCallsOfArgs args = args.flatMap userCalls := by
  induction args with
  | nil => simp [userCallsOfArgs]
  | cons e rest ih => simp [userCallsOfArgs, ih]

end Formula

namespace Expr

variable {ν μ : Type}

mutual

/-- The expression as a formula; `none` if a product occurs anywhere in it. -/
def formula? : Expr ν → Option (Formula ν)
  | vector v => some (.vector v)
  | scalar x t => some (.scalar x t)
  | unary tag e => (formula? e).map (.unary tag)
  | binary tag l r =>
    match formula? l, formula? r with
    | some l, some r => some (.binary tag l r)
    | _, _ => none
  | call g args => (formulas? args).map (.call g)
  | product _ _ => none

/-- The arguments as formulas. -/
def formulas? : List (Expr ν) → Option (List (Formula ν))
  | [] => some []
  | e :: rest =>
    match formula? e, formulas? rest with
    | some e, some rest => some (e :: rest)
    | _, _ => none

end

mutual

/-- Replaces the vectors of an expression. -/
def map (f : ν → μ) : Expr ν → Expr μ
  | vector v => vector (f v)
  | scalar x t => scalar x t
  | unary tag e => unary tag (e.map f)
  | binary tag l r => binary tag (l.map f) (r.map f)
  | call g args => call g (mapArgs f args)
  | product a v => product a (f v)

/-- Replaces the vectors of arguments. -/
def mapArgs (f : ν → μ) : List (Expr ν) → List (Expr μ)
  | [] => []
  | e :: rest => e.map f :: mapArgs f rest

end

/-- The name of the kind of an expression, as messages give it. -/
def kindName : Expr ν → String
  | vector _ => "VectorTerminal"
  | scalar .. => "ScalarTerminal"
  | unary .. => "UnaryOp"
  | binary .. => "BinaryOp"
  | call .. => "FunctionCall"
  | product .. => "OperatorProduct"

/-- The expression as a formula, or the refusal of a product inside it. -/
def formula (e : Expr ν) : Except ExprFault (Formula ν) :=
  match e.formula? with
  | some f => .ok f
  | none => .error .misplacedProduct

end Expr

mutual

/-- A formula is an expression. -/
def Formula.toExpr {ν : Type} : Formula ν → Expr ν
  | .vector v => .vector v
  | .scalar x t => .scalar x t
  | .unary tag e => .unary tag e.toExpr
  | .binary tag l r => .binary tag l.toExpr r.toExpr
  | .call g args => .call g (Formula.toExprs args)

/-- Formulas are expressions. -/
def Formula.toExprs {ν : Type} : List (Formula ν) → List (Expr ν)
  | [] => []
  | e :: rest => e.toExpr :: Formula.toExprs rest

end

end DistributedVector
