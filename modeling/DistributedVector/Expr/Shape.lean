import DistributedVector.Expr.Basic

/-!
# Shapes

The shape of a formula is what its kernel depends on: operators, functions and the types of its
leaves, but neither the vectors nor the values of the scalars. Vectors enter only by their types,
so the formulas here have data types for vectors.

## Main definitions

* `Shape`, `Formula.shape` — the shape of a formula
* `KernelShape` — a shape with the type of the result
* `Shape.key`, `KernelShape.key` — shapes as keys
-/

namespace DistributedVector

/-- Operators, functions and leaf types of a formula. -/
inductive Shape
  | vector (token : String)
  | scalar (token : String)
  | unary (tag : String) (operand : Shape)
  | binary (tag : String) (left right : Shape)
  | call (function : Function) (args : List Shape)

/-- A shape with the tag of the result type, if one is given. -/
structure KernelShape where
  result : Option String
  body : Shape

mutual

/-- The shape of a formula. -/
def Formula.shape : Formula DataType → Shape
  | .vector t => .vector t.token
  | .scalar _ t => .scalar t.token
  | .unary tag e => .unary tag e.shape
  | .binary tag l r => .binary tag l.shape r.shape
  | .call g args => .call g (Formula.shapes args)

/-- The shapes of arguments. -/
def Formula.shapes : List (Formula DataType) → List Shape
  | [] => []
  | e :: rest => e.shape :: Formula.shapes rest

end

/-- The shape of the kernel that computes a formula into a result type. -/
def Formula.kernelShape (e : Formula DataType) (result : Option DataType) : KernelShape :=
  ⟨result.map DataType.token, e.shape⟩

mutual

/-- A shape as a key: the kind of node, its tag, the keys of its parts. -/
def Shape.key : Shape → Key
  | .vector t => .tuple [.text "vector", .text t]
  | .scalar t => .tuple [.text "scalar", .text t]
  | .unary tag s => .tuple [.text "unary", .text tag, s.key]
  | .binary tag l r => .tuple [.text "binary", .text tag, l.key, r.key]
  | .call g args => .tuple (.text "call" :: g.key :: Shape.keys args)

/-- The keys of arguments. -/
def Shape.keys : List Shape → List Key
  | [] => []
  | s :: rest => s.key :: Shape.keys rest

end

/-- A kernel shape as a key. -/
def KernelShape.key (s : KernelShape) : Key :=
  match s.result with
  | none => s.body.key
  | some t => .tuple [.text "result", .text t, s.body.key]

end DistributedVector
