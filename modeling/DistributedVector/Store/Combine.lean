import DistributedVector.Expr.Text
import DistributedVector.Store.Element
import DistributedVector.Template.Fill

/-!
# Operators on operands of a store

Operators build expressions, with one exception: the remainder operator of a text fills the text in
as a template. The elements of a vector on its right can be looked up by their positions and are
read from the devices for that. Texts and bytes that bring a data type of their own are made of
numbers and have no placeholders: the text stays what it is, and the bytes lose their type.

## Main definitions

* `Store.filling` — an operand as what a template is filled in with
* `Store.combine` — a binary operator applied to operands
-/

namespace DistributedVector

namespace Store

variable {ν : Type}

/-- The element of a vector that a key stands for. -/
def elementByKey (v : VectorId) (key : String) : Task Store Template.Value := do
  let x ← get v (.text key)
  return .number (← vector v).type x

/-- What an operand fills templates in with, if it does. -/
def filling (idOf : ν → VectorId) : Operand ν → Task Store (Template.Filling Store)
  | .vector v => do
    return ⟨.object (← vector (idOf v)).render, some (elementByKey (idOf v))⟩
  | .expr e => do
    let table := (← getThe Store).vectors
    let vectorText := fun v => ((table[idOf v]?).map Descriptor.render).getD ""
    return ⟨.object (e.text vectorText), none⟩
  | .host _ => throw (.expr .rejectedOperands)
  | x => return ⟨.object x.typeName, none⟩

/-- A binary operator applied to operands. -/
def combine (idOf : ν → VectorId) (op : BinaryOp) (l r : Operand ν) : Task Store (Operand ν) := do
  match op, l with
  | .mod, .host (.text template) =>
    return .host (.text (← Template.fill template (← filling idOf r)))
  | .mod, .host (.typedText s) =>
    let _ ← Template.fill s (← filling idOf r)
    return .host (.typedText s)
  | .mod, .host (.bytes b _) =>
    let _ ← Template.fill b.text (← filling idOf r)
    return .host (.bytes b false)
  | op, l => orFault .expr (Operand.binary op l r)

end Store

end DistributedVector
