import DistributedVector.Expr.Operand

/-!
# Host values as elements

A single host value stored into an element has to stand for a number that fits the element type.

## Main definitions

* `HostValue.element` — the element that a host value becomes
-/

namespace DistributedVector

/-- The element that a host value becomes; nothing is no number. -/
def HostValue.element (t : ElementType) : HostValue → Except NumberFault Scalar
  | int n => t.encode (.int n)
  | float x => t.encode (.float x)
  | typed s x => t.pack s x
  | bool b => t.encode (.int (if b then 1 else 0))
  | text s | typedText s => t.ofText s
  | bytes b _ => t.ofText b.text
  | nothing => if t.isFloat then .ok (.float (0 / 0)) else .error .notConvertible
  | emptyList | complex => .error .notConvertible

end DistributedVector
