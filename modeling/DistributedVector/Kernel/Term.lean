import DistributedVector.Expr.Basic

/-!
# Kernel terms

The value that a kernel stores at an index is written as a term of the kernel language: parameters,
operators and calls, each operator in parentheses. Lowering a formula numbers its leaves from left
to right; vector leaves become the entry of a parameter at the index, scalar leaves the parameter
itself.

## Main definitions

* `KernelTerm`, `KernelTerm.render`
* `Formula.lower` — the term of a formula, refusing tags that are no operators
-/

namespace DistributedVector

/-- A term of the kernel language. Parameters are numbered from 1. -/
inductive KernelTerm
  | entry (param : Nat)
  | value (param : Nat)
  | unary (op : UnaryOp) (operand : KernelTerm)
  | binary (op : BinaryOp) (left right : KernelTerm)
  | call (function : Function) (args : List KernelTerm)

/-- The name of a parameter. -/
def parameterName (i : Nat) : String := "prm_" ++ toString i

namespace KernelTerm

mutual

/-- The text of a term. -/
def render : KernelTerm → String
  | entry i => parameterName i ++ "[idx]"
  | value i => parameterName i
  | unary op t => "(" ++ op.symbol ++ t.render ++ ")"
  | binary op l r => "(" ++ l.render ++ " " ++ op.symbol ++ " " ++ r.render ++ ")"
  | call f args => f.name ++ "(" ++ ", ".intercalate (renderArgs args) ++ ")"

/-- The texts of arguments. -/
def renderArgs : List KernelTerm → List String
  | [] => []
  | t :: rest => t.render :: renderArgs rest

end

end KernelTerm

namespace Formula

variable {ν : Type}

mutual

/-- The term of a formula whose first leaf has number `next`, and the number after its last leaf.
The tag of a unary node is looked up before its operand is lowered, that of a binary node after
both operands. -/
def lowerFrom : Formula ν → Nat → Except TagFault (KernelTerm × Nat)
  | vector _, next => .ok (.entry next, next + 1)
  | scalar _ _, next => .ok (.value next, next + 1)
  | unary tag e, next => do
    let op ← unaryOp tag
    let (t, next) ← e.lowerFrom next
    return (.unary op t, next)
  | binary tag l r, next => do
    let (l, next) ← l.lowerFrom next
    let (r, next) ← r.lowerFrom next
    return (.binary (← binaryOp tag) l r, next)
  | call g args, next => do
    let (args, next) ← lowerArgsFrom args next
    return (.call g args, next)

/-- The terms of arguments. -/
def lowerArgsFrom : List (Formula ν) → Nat → Except TagFault (List KernelTerm × Nat)
  | [], next => .ok ([], next)
  | e :: rest, next => do
    let (t, next) ← e.lowerFrom next
    let (ts, next) ← lowerArgsFrom rest next
    return (t :: ts, next)

end

/-- The term of a formula. -/
def lower (e : Formula ν) : Except TagFault KernelTerm := (e.lowerFrom 1).map (·.1)

end Formula

end DistributedVector
