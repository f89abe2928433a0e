import DistributedVector.Element.Scalar
import DistributedVector.Number.Decimal
import DistributedVector.Text.Numeral

/-!
# Numbers as texts

A number is written with the fewest digits from which its type reads it back: with an exponent if it
is very large or very small, and with a point and at least one digit behind it otherwise. Integers
have neither. Arrays and single values may hold numbers as texts or as bytes; where elements are
needed, these are read again.

## Main definitions

* `ElementType.text` — the text of a number of a type
* `Scalar.text` — the text of a plain number
* `ElementType.ofText` — the element that a text stands for
* `DataType.forValues` — the type of an array, which has room for its longest text
* `DataType.spelled?` — a number as the text that an array of a data type holds
* `ElementType.cast`, `DataType.shown` — the contents of an array of a data type as elements and as
  numbers
* `ByteString` — bytes made of a number
* `DataType.single` — a number of a data type on its own
-/

namespace DistributedVector

namespace ElementType

/-- The bits of the significands and the least exponent of a type; types other than `float32` are
read as doubles. -/
def format (t : ElementType) : Nat × Int :=
  if t = float32 then (24, -149) else (53, -1074)

/-- The least power of ten that is written with an exponent. -/
def exponentFrom (t : ElementType) : Float := if t = float32 then 1e6 else 1e16

/-- Whether a double is written without an exponent as a number of a type. -/
def isPositional (t : ElementType) (x : Float) : Bool :=
  x == 0 || (1e-4 ≤ x.abs && x.abs < t.exponentFrom)

end ElementType

/-- The text of a decimal number: without an exponent there is at least one digit behind the
point. -/
def Decimal.text (d : Decimal) (positional : Bool) : String :=
  String.ofList <|
    if positional then Decimal.join true d.whole (if d.fraction.isEmpty then ['0'] else d.fraction)
    else d.exponential false

/-- The text of a number of a type. -/
def ElementType.text (t : ElementType) : Scalar → String
  | .int n => toString n
  | .float x =>
    match Binary64.decode x with
    | none => Binary64.special x
    | some p =>
      (if p.negative then "-" else "") ++
        (p.shortest t.format.1 t.format.2).text (t.isPositional x)

/-- The text of a number with the name of its type. -/
def ElementType.fullText (t : ElementType) (x : Scalar) : String :=
  "np." ++ t.name ++ "(" ++ t.text x ++ ")"

/-- The text of a plain number. -/
def Scalar.text (x : Scalar) : String := ElementType.float64.text x

/-- The element that a text stands for: a decimal number, or an integer for integer types. -/
def ElementType.ofText (t : ElementType) (s : String) : Except NumberFault Scalar :=
  if t.isFloat then
    match Text.decimal? s with
    | some x => .ok (.float (t.round x))
    | none => .error .notNumeric
  else
    match Text.integer? s with
    | some n => t.encode (.int n)
    | none => .error .notNumeric

namespace DataType

/-- The type of an array of the given numbers: an array of texts has room for the longest one, and
for at least one character. -/
def forValues (values : List Scalar) : DataType → DataType
  | foreign (.text _) =>
    foreign (.text ((values.map fun x => x.text.length).foldl max 1))
  | t => t

/-- The text that an array holds in place of a number, if its data type is one of texts. An array of
bytes cuts it to its width. -/
def spelled? : DataType → Scalar → Option String
  | foreign (.text _), x => some x.text
  | foreign (.bytes n), x => some (String.ofList (x.text.toList.take n))
  | _, _ => none

/-- The number that an array of a data type shows in place of a number. What has a unit of time is
not shown as a number. -/
def shown (t : DataType) (x : Scalar) : Except NumberFault Scalar :=
  if t = foreign .duration then .error .notConvertible
  else
    match t.spelled? x with
    | some s => ElementType.float64.ofText s
    | none => .ok x

end DataType

/-- What an array of a data type holds, as an element: an element of the type stays as it is, an
object has to fit, a text is read, and everything else is converted. -/
def ElementType.cast (t : ElementType) (source : DataType) (x : Scalar) :
    Except NumberFault Scalar :=
  if source = .element t then .ok x
  else if source = .foreign .object then t.encode x
  else
    match source.spelled? x with
    | some s => t.ofText s
    | none => .ok (t.convert x)

/-- Bytes made of a number. -/
inductive ByteString
  /-- the characters that the number is written with -/
  | written (s : String)
  /-- as many zeros as the number says -/
  | zeros (count : Nat)

namespace ByteString

/-- Zeros are made in smaller numbers only. -/
def maxZeros : Nat := Nat.pow 2 36

/-- The bytes made of a number: a count of zeros if it can be one. -/
def ofScalar : Scalar → ByteString
  | .int n => if 0 ≤ n ∧ n < maxZeros then zeros n.toNat else written (Scalar.int n).text
  | x => written x.text

/-- The number of bytes. -/
def length : ByteString → Nat
  | written s => s.length
  | zeros n => n

/-- The text of the bytes, to which zeros at the end do not belong. -/
def text : ByteString → String
  | written s => s
  | zeros _ => ""

end ByteString

/-- A number of a data type on its own, with the type that it then has. Byte order is a matter of
arrays, a duration has no unit, no number is a date, and texts are as long as they need to be. -/
def DataType.single (t : DataType) (x : Scalar) : Except NumberFault (DataType × Scalar) := do
  match t with
  | .foreign (.swapped t) => return (.element t, ← t.encode x)
  | .foreign .duration => return (.foreign .unitless, ← x.toTicks)
  | .foreign .date => throw .notNumeric
  | .foreign (.text _) =>
    return (.foreign (.text x.text.length), ← ElementType.float64.ofText x.text)
  | .foreign (.bytes _) =>
    let b := ByteString.ofScalar x
    return (.foreign (.bytes b.length), ← ElementType.float64.ofText b.text)
  | t => return (t, ← t.accept x)

end DistributedVector
