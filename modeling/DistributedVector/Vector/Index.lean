import DistributedVector.Element.Scalar
import DistributedVector.Text.Numeral

/-!
# Indices and slices

Elements are selected by an index, which may be any value that stands for an integer, or by a slice.
Negative positions count from the end; the ends of slices are moved into the range of positions.

## Main definitions

* `Index`, `Index.toInt` — a single index
* `Slice`, `Slice.bounds` — first position, end and step of a slice
* `SliceBounds.positions` — the positions that a slice selects
-/

namespace DistributedVector

/-- A value that is to stand for a position. -/
inductive Index
  | int (n : Int)
  | float (x : Float)
  | text (s : String)
  | nothing

/-- The integer that an index stands for; doubles are truncated, texts are read as numerals. -/
def Index.toInt : Index → Except NumberFault Int
  | int n => .ok n
  | float x => (Scalar.float x).toInteger
  | text s =>
    match Text.integer? s with
    | some n => .ok n
    | none => .error .notNumeric
  | nothing => .error .notConvertible

/-- A slice; missing parts have defaults. -/
structure Slice where
  start : Option Int
  stop : Option Int
  step : Option Int

/-- First position, end and step of a slice. -/
structure SliceBounds where
  start : Int
  stop : Int
  step : Int
  deriving DecidableEq, Repr

namespace Slice

/-- A position counted from the end if it is negative, moved into `[lower, upper]`. -/
def clamp (length lower upper position : Int) : Int :=
  max lower (min upper (if position < 0 then position + length else position))

/-- The bounds of a slice of `length` elements; `none` for a step of zero. -/
def bounds (s : Slice) (length : Nat) : Option SliceBounds :=
  let step := s.step.getD 1
  if step = 0 then none
  else
    let lower : Int := if step < 0 then -1 else 0
    let upper : Int := if step < 0 then length - 1 else length
    some {
      start := (s.start.map (clamp length lower upper)).getD (if step < 0 then upper else lower)
      stop := (s.stop.map (clamp length lower upper)).getD (if step < 0 then lower else upper)
      step }

end Slice

namespace SliceBounds

/-- How many positions there are. -/
def count (b : SliceBounds) : Nat :=
  if 0 < b.step then ((b.stop - b.start + b.step - 1).fdiv b.step).toNat
  else ((b.start - b.stop - b.step - 1).fdiv (-b.step)).toNat

/-- The positions from the first on. -/
def positions (b : SliceBounds) : List Nat :=
  (List.range b.count).map fun (i : Nat) => (b.start + (i : Int) * b.step).toNat

end SliceBounds

end DistributedVector
