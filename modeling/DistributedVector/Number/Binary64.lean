/-!
# Doubles as exact numbers

A finite double is `± significand · 2 ^ exponent`. Whatever has to be exact about doubles
(truncation to an integer, decimal digits, rounding to half precision) is computed on that
decomposition in integer arithmetic.

## Main definitions

* `Binary64.decode` — sign, significand and exponent of a finite double
* `Binary64.truncate?` — the integer part, toward zero
* `Binary64.Parts.scaled` — the size times a power of ten, ties to even
* `Binary64.toHalf` — the nearest half-precision number
-/

namespace DistributedVector.Binary64

/-- A finite double, `(-1) ^ negative * significand * 2 ^ exponent`. -/
structure Parts where
  negative : Bool
  significand : Nat
  exponent : Int
  deriving DecidableEq, Repr

/-- The parts of a finite double; `none` for infinities and for values that are no number. -/
def decode (x : Float) : Option Parts :=
  let bits := x.toBits.toNat
  let negative := decide (Nat.pow 2 63 ≤ bits)
  let biased : Nat := bits / Nat.pow 2 52 % Nat.pow 2 11
  let fraction : Nat := bits % Nat.pow 2 52
  if biased = 2047 then none
  else if biased = 0 then some ⟨negative, fraction, -1074⟩
  else some ⟨negative, fraction + Nat.pow 2 52, (biased : Int) - 1075⟩

/-- Division of naturals to the nearest integer, a tie to the even neighbour. -/
def divNearestEven (num den : Nat) : Nat :=
  let q := num / den
  let r := num % den
  if 2 * r < den then q
  else if den < 2 * r then q + 1
  else q + q % 2

/-- `significand * 2 ^ exponent` rounded down. -/
def Parts.floorAbs (p : Parts) : Nat :=
  if 0 ≤ p.exponent then p.significand * Nat.pow 2 p.exponent.toNat
  else p.significand / Nat.pow 2 (-p.exponent).toNat

/-- The integer part of a finite double, toward zero. -/
def truncate? (x : Float) : Option Int :=
  (decode x).map fun p => if p.negative then -(p.floorAbs : Int) else p.floorAbs

/-- `significand * 2 ^ exponent * 10 ^ places` to the nearest integer. -/
def Parts.scaled (p : Parts) (places : Nat) : Nat :=
  let m := p.significand * Nat.pow 10 places
  if 0 ≤ p.exponent then m * Nat.pow 2 p.exponent.toNat
  else divNearestEven m (Nat.pow 2 (-p.exponent).toNat)

/-- The text of an infinity, or of a value that is no number. -/
def special (x : Float) : String := if x.isNaN then "nan" else if x < 0 then "-inf" else "inf"

/-- The nearest number of half precision (11 significant bits, exponents from -24), ties to even. -/
def toHalf (x : Float) : Float :=
  match decode x with
  | none => x
  | some p =>
    if p.significand = 0 then x
    else
      let top : Int := p.exponent + (Nat.log2 p.significand : Int)
      let unit : Int := max (top - 10) (-24)
      let n : Nat :=
        if unit ≤ p.exponent then p.significand * Nat.pow 2 (p.exponent - unit).toNat
        else divNearestEven p.significand (Nat.pow 2 (unit - p.exponent).toNat)
      let y := Float.scaleB (Float.ofNat n) unit
      let y := if 65504 < y then 1 / 0 else y
      if p.negative then -y else y

end DistributedVector.Binary64
