import DistributedVector.Number.Binary64

/-!
# Decimal digits of doubles

A finite double is written in decimal in one of three ways: with a given number of places behind the
point or of significant digits, nearest to its value, or with the fewest digits that are read back
as the same number. All are computed in exact arithmetic on naturals; what is read back as a number
is the interval of all values that are nearer to it than to its neighbours.

## Main definitions

* `Decimal` — digits and the place of the point, with `positional` and `exponential` texts
* `Binary64.fixed` — a given number of places
* `Binary64.Parts.significant` — a given number of digits
* `Binary64.Parts.shortest` — the fewest digits
-/

namespace DistributedVector

/-- A number written in decimal digits: a point after `point` digits, or before them after as many
zeros as `point` is negative. -/
structure Decimal where
  digits : List Char
  point : Int
  deriving DecidableEq, Repr

namespace Decimal

/-- The digits of a natural, times a power of ten. -/
def ofNat (n : Nat) (exponent : Int) : Decimal :=
  let digits := Nat.toDigits 10 n
  ⟨digits, digits.length + exponent⟩

/-- The digits of a natural, of which the last `count` stand behind the point. -/
def ofPlaces (n count : Nat) : Decimal := ofNat n (-count)

/-- Zero, written with a number of digits. -/
def zero (count : Nat) : Decimal := ⟨List.replicate count '0', 1⟩

/-- The number without the zeros at the end of its digits. -/
def stripZeros (d : Decimal) : Decimal :=
  { d with digits := (d.digits.reverse.dropWhile (· = '0')).reverse }

/-- The digits before and behind a point; without any behind it the point is left out unless it is
to be kept. -/
def join (keepPoint : Bool) (whole fraction : List Char) : List Char :=
  if fraction.isEmpty && !keepPoint then whole else whole ++ '.' :: fraction

/-- The digits before the point: at least one. -/
def whole (d : Decimal) : List Char :=
  if d.point ≤ 0 then ['0']
  else
    let digits := d.digits.take d.point.toNat
    digits ++ List.replicate (d.point.toNat - digits.length) '0'

/-- The digits behind the point. -/
def fraction (d : Decimal) : List Char :=
  if d.point ≤ 0 then List.replicate (-d.point).toNat '0' ++ d.digits
  else d.digits.drop d.point.toNat

/-- The number with its point where it belongs. -/
def positional (keepPoint : Bool) (d : Decimal) : List Char := join keepPoint d.whole d.fraction

/-- An exponent with its sign and at least two digits. -/
def exponentText (e : Int) : List Char :=
  let digits := Nat.toDigits 10 e.natAbs
  'e' :: (if e < 0 then '-' else '+') :: (List.replicate (2 - digits.length) '0' ++ digits)

/-- The number with its point behind the first digit, and an exponent. -/
def exponential (keepPoint : Bool) (d : Decimal) : List Char :=
  join keepPoint (d.digits.take 1) (d.digits.drop 1) ++ exponentText (d.point - 1)

end Decimal

namespace Binary64

/-- Decimal text with exactly `places` digits after the point, nearest value, ties to even. -/
def fixed (places : Nat) (x : Float) : String :=
  match decode x with
  | none => special x
  | some p =>
    (if p.negative then "-" else "") ++
      String.ofList ((Decimal.ofPlaces (p.scaled places) places).positional false)

/-- Numerator and denominator of `n * 2 ^ e / 10 ^ k`. -/
def ratio (n : Nat) (e k : Int) : Nat × Nat :=
  (n * Nat.pow 2 e.toNat * Nat.pow 10 (-k).toNat, Nat.pow 2 (-e).toNat * Nat.pow 10 k.toNat)

/-- The number of decimal digits of a natural. -/
def digitCount (n : Nat) : Nat := (Nat.toDigits 10 n).length

/-- The least `d` for which the quotient of two positive naturals is below `10 ^ d`. -/
def magnitude (num den : Nat) : Int :=
  if den ≤ num then digitCount (num / den)
  else
    let d := digitCount (den / num)
    if num * Nat.pow 10 (d - 1) = den then 2 - d else 1 - d

namespace Parts

/-- The least `d` for which the size of a number other than zero is below `10 ^ d`. -/
def magnitude (p : Parts) : Int :=
  let (num, den) := ratio p.significand p.exponent 0
  Binary64.magnitude num den

/-- The size of the number with a number of significant digits, ties to even. -/
def significant (count : Nat) (p : Parts) : Decimal :=
  if p.significand = 0 then .zero count
  else
    let k := p.magnitude - count
    let (num, den) := ratio p.significand p.exponent k
    let n := divNearestEven num den
    if n = Nat.pow 10 count then .ofNat (n / 10) (k + 1) else .ofNat n k

/-- The numbers that are read back as a given one: those between `lower` and `upper`, times
`2 ^ exponent`, with the ends if it is `closed`. -/
structure Neighbourhood where
  lower : Nat
  value : Nat
  upper : Nat
  exponent : Int
  closed : Bool

/-- The neighbourhood of a number other than zero in a format whose significands have `precision`
bits and whose exponents are at least `least`. Below a power of two the neighbour is half as far. -/
def neighbourhood (precision : Nat) (least : Int) (p : Parts) : Neighbourhood :=
  let unit := max (p.exponent + Nat.log2 p.significand + 1 - precision) least
  let m := p.significand * Nat.pow 2 (p.exponent - unit).toNat / Nat.pow 2 (unit - p.exponent).toNat
  let below := if m = Nat.pow 2 (precision - 1) ∧ least < unit then 1 else 2
  ⟨4 * m - below, 4 * m, 4 * m + 2, unit - 2, m % 2 = 0⟩

/-- Whether a multiple of `den` lies in the neighbourhood, of which the ends are given. -/
def Neighbourhood.holds (h : Neighbourhood) (lower upper : Nat) (x : Nat) : Bool :=
  if h.closed then lower ≤ x && x ≤ upper else lower < x && x < upper

/-- The multiple of `10 ^ k` in a neighbourhood that is nearest to its value, if there is one. -/
def Neighbourhood.multiple? (h : Neighbourhood) (k : Int) : Option Nat :=
  let (value, den) := ratio h.value h.exponent k
  let (lower, _) := ratio h.lower h.exponent k
  let (upper, _) := ratio h.upper h.exponent k
  let n := value / den
  match h.holds lower upper (n * den), h.holds lower upper ((n + 1) * den) with
  | true, true => some (divNearestEven value den)
  | true, false => some n
  | false, true => some (n + 1)
  | false, false => none

/-- The most digits that tell two doubles apart. -/
def maxShortest : Nat := 17

/-- The size of the number with the fewest digits that are read back as the number itself, in a
format whose significands have `precision` bits and whose exponents are at least `least`. -/
def shortest (precision : Nat) (least : Int) (p : Parts) : Decimal :=
  if p.significand = 0 then .zero 1
  else
    let h := p.neighbourhood precision least
    let d := p.magnitude
    let found := (List.range (maxShortest + 1)).findSome? fun (count : Nat) =>
      (h.multiple? (d - count)).map fun n => Decimal.ofNat n (d - count)
    found.getD (p.significant maxShortest)

end Parts

end Binary64

end DistributedVector
