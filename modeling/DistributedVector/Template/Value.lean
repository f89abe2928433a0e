import DistributedVector.Element.Text
import DistributedVector.Fault
import DistributedVector.Text.Quoted

/-!
# Values in templates

A value of a template is a number of an element type or an object that only has a text. It is
written as a text, as an integer in some base, as a double with or without an exponent, or as a
character, and filled up to the width of its placeholder.

## Main definitions

* `Template.Value` — what a placeholder stands for
* `Field` — a written value before it is filled up
* `Placeholder.field`, `Placeholder.write` — a value in a placeholder
-/

namespace DistributedVector

/-- What a placeholder stands for. -/
inductive Template.Value
  /-- an object of which only the text is known -/
  | object (text : String)
  | number (type : ElementType) (x : Scalar)

/-- A written value: sign, mark of the base, and the rest. -/
structure Field where
  sign : List Char := []
  mark : List Char := []
  body : List Char
  /-- whether zeros may stand before the body -/
  numeric : Bool
  deriving DecidableEq, Repr

namespace Placeholder

/-- The sign of a number. -/
def signOf (p : Placeholder) (negative : Bool) : List Char :=
  if negative then ['-'] else if p.plus then ['+'] else if p.blank then [' '] else []

/-- The base of a letter for integers. -/
def base (p : Placeholder) : Nat :=
  if p.conversion = 'o' then 8 else if p.conversion = 'x' ∨ p.conversion = 'X' then 16 else 10

/-- Small letters as capitals if the letter is one. -/
def raise (p : Placeholder) (cs : List Char) : List Char :=
  if p.conversion.isUpper then cs.map Char.toUpper else cs

/-- An integer in the base of the letter. The precision is the least number of digits. -/
def integerField (p : Placeholder) (n : Int) : Field :=
  let digits := Nat.toDigits p.base n.natAbs
  { sign := p.signOf (n < 0)
    mark := if p.alternate && p.base ≠ 10 then ['0', p.conversion] else []
    body := List.replicate (p.precision.getD 0 - digits.length) '0' ++ p.raise digits
    numeric := true }

/-- The digits of a double that is a number. The precision counts the digits behind the point, six
if there is none; for the general form it counts all digits, of which zeros at the end are left out
and the exponent decides how they are written. -/
def digitsOf (p : Placeholder) (parts : Binary64.Parts) : List Char :=
  let precision := p.precision.getD 6
  match p.conversion.toLower with
  | 'e' => (parts.significant (precision + 1)).exponential p.alternate
  | 'f' =>
    (Decimal.ofPlaces (parts.scaled precision) precision).positional p.alternate
  | _ =>
    let count := max precision 1
    let d := parts.significant count
    let shown := if p.alternate then d else d.stripZeros
    if d.point ≤ -4 ∨ count < d.point then shown.exponential p.alternate
    else shown.positional p.alternate

/-- A double in the form of the letter. -/
def doubleField (p : Placeholder) (x : Float) : Field :=
  match Binary64.decode x with
  | none =>
    { sign := p.signOf (x < 0), body := p.raise (Binary64.special x.abs).toList, numeric := true }
  | some parts =>
    { sign := p.signOf parts.negative, body := p.raise (p.digitsOf parts), numeric := true }

/-- A text, cut to the precision. -/
def textField (p : Placeholder) (s : String) : Field :=
  { body := match p.precision with
      | some n => s.toList.take n
      | none => s.toList
    numeric := false }

/-- The character of a number. A number in the gap that no text can hold becomes the sign for what
cannot be shown. -/
def characterField (n : Int) : Except TemplateFault Field :=
  if n < 0 ∨ 0x10ffff < n then .error .noCharacter
  else
    let code := n.toNat
    let c := if 0xd800 ≤ code ∧ code ≤ 0xdfff then Char.ofNat 0xfffd else Char.ofNat code
    .ok { body := [c], numeric := false }

/-- A value with the name of its type, as it is shown in full. -/
def fullText : Template.Value → String
  | .object text => text
  | .number t x => t.fullText x

/-- A value as it is written before it is filled up. -/
def field (p : Placeholder) (v : Template.Value) : Except Fault Field :=
  let unsuitable : Except Fault Field := .error (.template (.unsuitable p.conversion))
  match p.conversion with
  | 's' =>
    .ok <| p.textField <| match v with
      | .object text => text
      | .number t x => t.text x
  | 'r' => .ok (p.textField (fullText v))
  | 'a' => .ok (p.textField (Text.ascii (fullText v)))
  | 'd' | 'i' | 'u' =>
    match v with
    | .number _ x => (x.toInteger.mapError Fault.number).map p.integerField
    | .object _ => unsuitable
  | 'o' | 'x' | 'X' =>
    match v with
    | .number _ (.int n) => .ok (p.integerField n)
    | _ => unsuitable
  | 'e' | 'E' | 'f' | 'F' | 'g' | 'G' =>
    match v with
    | .number _ x => .ok (p.doubleField x.toFloat)
    | .object _ => unsuitable
  | 'c' =>
    match v with
    | .number _ (.int n) => (characterField n).mapError Fault.template
    | _ => unsuitable
  | c => .error (.template (.conversion c))

/-- Fills a written value up to the width. -/
def fill (p : Placeholder) (f : Field) : List Char :=
  let written := f.sign ++ f.mark ++ f.body
  let room := p.width - written.length
  if p.leftAligned then written ++ List.replicate room ' '
  else if p.zeros && f.numeric then f.sign ++ f.mark ++ List.replicate room '0' ++ f.body
  else List.replicate room ' ' ++ written

/-- A value as it is written. -/
def write (p : Placeholder) (v : Template.Value) : Except Fault (List Char) :=
  (p.field v).map p.fill

end Placeholder

end DistributedVector
