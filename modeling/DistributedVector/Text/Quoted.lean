import DistributedVector.Text.Printable

/-!
# Quoted text

Texts inside messages and keys are quoted: in single quotes, or in double quotes if the text has a
single quote and no double quote. The quote in use and the backslash are escaped by a backslash,
line feed, carriage return and tab by name, and every other character that is not printable by its
code in two, four or eight hexadecimal digits.

## Main definitions

* `quoteMark` — the quote used for a text
* `escape` — the characters written for one character
* `quote` — the quoted text
* `ascii` — a text in the first 128 characters only
-/

namespace DistributedVector.Text

/-- The lowercase hexadecimal digit of a number below sixteen. -/
def hexDigit (n : Nat) : Char := Nat.digitChar n

/-- The lowest `width` hexadecimal digits of a number. -/
def hexDigits : Nat → Nat → List Char
  | 0, _ => []
  | width + 1, n => hexDigits width (n / 16) ++ [hexDigit (n % 16)]

theorem length_hexDigits (width n : Nat) : (hexDigits width n).length = width := by
  induction width generalizing n with
  | zero => rfl
  | succ width ih => simp [hexDigits, ih]

/-- The quote that encloses a text. -/
def quoteMark (s : List Char) : Char :=
  if '\'' ∈ s ∧ '"' ∉ s then '"' else '\''

/-- A character by its code in two, four or eight hexadecimal digits. -/
def escapeCode (c : Char) : List Char :=
  if c.toNat < 0x100 then '\\' :: 'x' :: hexDigits 2 c.toNat
  else if c.toNat < 0x10000 then '\\' :: 'u' :: hexDigits 4 c.toNat
  else '\\' :: 'U' :: hexDigits 8 c.toNat

/-- What is written for one character between quotes `q`. -/
def escape (q : Char) (c : Char) : List Char :=
  if c = q ∨ c = '\\' then ['\\', c]
  else if c = '\n' then ['\\', 'n']
  else if c = '\r' then ['\\', 'r']
  else if c = '\t' then ['\\', 't']
  else if isPrintable c then [c]
  else escapeCode c

/-- The characters of a quoted text. -/
def quoteChars (s : List Char) : List Char :=
  let q := quoteMark s
  q :: s.flatMap (escape q) ++ [q]

/-- A text in quotes. -/
def quote (s : String) : String := String.ofList (quoteChars s.toList)

/-- A text with all characters beyond the first 128 by their codes. -/
def ascii (s : String) : String :=
  String.ofList (s.toList.flatMap fun c => if c.toNat < 0x80 then [c] else escapeCode c)

end DistributedVector.Text
