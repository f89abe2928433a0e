/-!
# Numerals

Reading of numbers that are given as text. Blanks around a numeral are skipped, a sign may come
first, digits may be decimal digits of any script, and a single underscore may stand between two
digits.

## Main definitions

* `integer?` — the integer that a numeral stands for
* `decimal?` — the double that a decimal numeral stands for
-/

namespace DistributedVector.Text

/-- The code points of the zeros of all decimal digit sets, after the Unicode character database,
version 14; each is followed by its digits from one to nine. -/
def zeros : List Nat := [
    0x30, 0x660, 0x6f0, 0x7c0, 0x966, 0x9e6, 0xa66, 0xae6, 0xb66, 0xbe6, 0xc66, 0xce6, 0xd66,
    0xde6, 0xe50, 0xed0, 0xf20, 0x1040, 0x1090, 0x17e0, 0x1810, 0x1946, 0x19d0, 0x1a80, 0x1a90,
    0x1b50, 0x1bb0, 0x1c40, 0x1c50, 0xa620, 0xa8d0, 0xa900, 0xa9d0, 0xa9f0, 0xaa50, 0xabf0,
    0xff10, 0x104a0, 0x10d30, 0x11066, 0x110f0, 0x11136, 0x111d0, 0x112f0, 0x11450, 0x114d0,
    0x11650, 0x116c0, 0x11730, 0x118e0, 0x11950, 0x11c50, 0x11d50, 0x11da0, 0x16a60, 0x16ac0,
    0x16b50, 0x1d7ce, 0x1d7d8, 0x1d7e2, 0x1d7ec, 0x1d7f6, 0x1e140, 0x1e2f0, 0x1e950, 0x1fbf0]

/-- The value of a decimal digit of any script. -/
def digit? (c : Char) : Option Nat :=
  (zeros.find? fun z => z ≤ c.toNat && c.toNat < z + 10).map (c.toNat - ·)

/-- Characters that count as blanks around numerals: blanks and line breaks, but no separators of
records. -/
def isBlank (c : Char) : Bool :=
  let n := c.toNat
  (0x9 ≤ n && n ≤ 0xd) || n = 0x20 || n = 0x85 || n = 0xa0 || n = 0x1680 ||
    (0x2000 ≤ n && n ≤ 0x200a) || n = 0x2028 || n = 0x2029 || n = 0x202f || n = 0x205f || n = 0x3000

/-- The text without the blanks at both ends. -/
def trim (s : List Char) : List Char :=
  ((s.dropWhile isBlank).reverse.dropWhile isBlank).reverse

/-- Digit values of a run of digits in which single underscores may separate digits. -/
def digitRun? : List Char → Option (List Nat)
  | [] => none
  | [c] => (digit? c).map fun d => [d]
  | c :: '_' :: d :: rest => do
    let first ← digit? c
    return first :: (← digitRun? (d :: rest))
  | c :: d :: rest => do
    let first ← digit? c
    return first :: (← digitRun? (d :: rest))

/-- The number written by decimal digit values. -/
def ofDigits (ds : List Nat) : Nat := ds.foldl (fun n d => 10 * n + d) 0

/-- Splits off a sign; the first component tells whether it was a minus. -/
def splitSign : List Char → Bool × List Char
  | '-' :: rest => (true, rest)
  | '+' :: rest => (false, rest)
  | s => (false, s)

/-- The greatest number of digits that an integer may be written with. -/
def maxDigits : Nat := 4300

/-- The integer that a numeral stands for, unless it has too many digits. -/
def integer? (s : String) : Option Int :=
  let (negative, rest) := splitSign (trim s.toList)
  (digitRun? rest).bind fun ds =>
    if maxDigits < ds.length then none
    else some (if negative then -(ofDigits ds : Int) else ofDigits ds)

/-- Splits at the first character with a property, which is dropped; `none` without one. -/
def splitAt? (p : Char → Bool) (s : List Char) : Option (List Char × List Char) :=
  match s.dropWhile (!p ·) with
  | [] => none
  | _ :: rest => some (s.takeWhile (!p ·), rest)

/-- Digits that may be missing. -/
def optionalRun? (s : List Char) : Option (List Nat) :=
  if s.isEmpty then some [] else digitRun? s

/-- The double nearest to the number written by decimal digit values, times `10 ^ e`. -/
def scale10 (digits : List Nat) (e : Int) : Float :=
  let significant := digits.dropWhile (· = 0)
  if significant.isEmpty then 0
  else if 400 < e + significant.length then 1 / 0
  else if e + significant.length < -400 then 0
  else Float.ofScientific (ofDigits significant) (e < 0) e.natAbs

/-- The nonnegative double written by a mantissa and an exponent. -/
def unsigned? (s : List Char) : Option Float := do
  let (mantissa, exponent) ←
    match splitAt? (fun c => c = 'e' || c = 'E') s with
    | none => some (s, 0)
    | some (m, e) =>
      let (negative, digits) := splitSign e
      (digitRun? digits).map fun ds =>
        (m, if negative then -(ofDigits ds : Int) else (ofDigits ds : Int))
  let (whole, fraction) := (splitAt? (· = '.') mantissa).getD (mantissa, [])
  if whole.isEmpty && fraction.isEmpty then none
  else
    let w ← optionalRun? whole
    let f ← optionalRun? fraction
    return scale10 (w ++ f) (exponent - f.length)

/-- The double that a decimal numeral stands for; infinities and non-numbers have names. -/
def decimal? (s : String) : Option Float :=
  let (negative, rest) := splitSign (trim s.toList)
  let word := String.ofList (rest.map Char.toLower)
  let x : Option Float :=
    if word = "inf" ∨ word = "infinity" then some (1 / 0)
    else if word = "nan" then some (0 / 0)
    else unsigned? rest
  x.map fun x => if negative then -x else x

end DistributedVector.Text
