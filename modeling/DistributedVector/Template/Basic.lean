/-!
# Templates

A template is a text with placeholders, which stand for values. A placeholder starts with a percent
sign and may look up a value by a key in parentheses; flags, a width and a precision follow, and a
letter that tells how the value is written. Two percent signs stand for one.

A template is read in one pass, character by character, into the tokens that are worked off when it
is filled in. What is wrong with a template is a token, too: it is found only when everything before
it has been filled in.

## Main definitions

* `Placeholder` — how a value is written
* `Token`, `Template.tokens` — the tokens of a template
* `TemplateFault` — why a template cannot be filled in
-/

namespace DistributedVector

/-- How a value is written. -/
structure Placeholder where
  /-- blanks go behind the value -/
  leftAligned : Bool := false
  /-- numbers that are not negative have a plus sign -/
  plus : Bool := false
  /-- numbers that are not negative have a blank in place of a sign -/
  blank : Bool := false
  /-- the alternate form, with the base or with a point -/
  alternate : Bool := false
  /-- numbers are filled up with zeros -/
  zeros : Bool := false
  /-- the least number of characters -/
  width : Nat := 0
  precision : Option Nat := none
  /-- the letter that tells how the value is written -/
  conversion : Char := 's'
  deriving DecidableEq, Repr

/-- Why a template cannot be filled in. -/
inductive TemplateFault
  /-- a key without its closing parenthesis -/
  | openKey
  /-- a placeholder without a letter -/
  | unfinished
  /-- a width or a precision beyond all bounds -/
  | tooWide
  /-- a width or a precision that is to be taken from the values -/
  | widthFromValue
  /-- a letter that stands for no way to write a value -/
  | conversion (letter : Char)
  /-- a key for a value that has no elements -/
  | noElements
  /-- a placeholder for which no value is left -/
  | noValue
  /-- a value for which there is no placeholder -/
  | unusedValue
  /-- a value that cannot be written in the way of the letter -/
  | unsuitable (letter : Char)
  /-- a number that stands for no character -/
  | noCharacter
  deriving DecidableEq, Repr

/-- What is done in turn when a template is filled in. -/
inductive Token
  /-- writes a character -/
  | literal (c : Char)
  /-- looks up an element, which is the value from then on; without a key there is only the check
  that the value has elements -/
  | lookup (key : Option String)
  /-- writes the value -/
  | place (p : Placeholder)
  /-- gives up -/
  | refuse (f : TemplateFault)
  deriving DecidableEq, Repr

namespace Template

/-- What has been read of a placeholder. -/
inductive Progress
  /-- no placeholder is being read -/
  | outside
  /-- the percent sign -/
  | percent
  /-- a part of a key, last character first, and how many parentheses are open -/
  | key (depth : Nat) (read : List Char)
  /-- everything up to some flags -/
  | flags (p : Placeholder)
  /-- everything up to some digits of the width -/
  | width (p : Placeholder)
  /-- everything up to the point in front of the precision -/
  | point (p : Placeholder)
  /-- everything up to some digits of the precision -/
  | precision (p : Placeholder)
  /-- everything up to a letter for a size, which means nothing -/
  | size (p : Placeholder)

/-- The greatest width. -/
def maxWidth : Nat := 9223372036854775807

/-- The greatest precision. -/
def maxPrecision : Nat := 2147483647

/-- The placeholder with one more flag, if the character is one. -/
def flag? (p : Placeholder) (c : Char) : Option Placeholder :=
  match c with
  | '-' => some { p with leftAligned := true }
  | '+' => some { p with plus := true }
  | ' ' => some { p with blank := true }
  | '#' => some { p with alternate := true }
  | '0' => some { p with zeros := true }
  | _ => none

/-- A number with one more digit. -/
def digitAfter (n : Nat) (c : Char) : Nat := 10 * n + (c.toNat - '0'.toNat)

/-- What a character leads to: tokens, and what has been read if the template goes on. -/
abbrev Step := List Token × Option Progress

/-- Gives up. -/
def stop (f : TemplateFault) : Step := ([.refuse f], none)

/-- The character behind all numbers: the letter, or one for a size before it. -/
def stepLetter (p : Placeholder) (c : Char) : Step :=
  if c = 'h' ∨ c = 'l' ∨ c = 'L' then ([], some (.size p))
  else ([.place { p with conversion := c }], some .outside)

/-- A character behind the width. -/
def stepPoint (p : Placeholder) (c : Char) : Step :=
  if c = '.' then ([], some (.point { p with precision := some 0 })) else stepLetter p c

/-- A character that may be a digit of the width. -/
def stepWidth (p : Placeholder) (c : Char) : Step :=
  if c.isDigit then
    let n := digitAfter p.width c
    if maxWidth < n then stop .tooWide else ([], some (.width { p with width := n }))
  else stepPoint p c

/-- A character that may be a digit of the precision. -/
def stepPrecision (p : Placeholder) (c : Char) : Step :=
  if c.isDigit then
    let n := digitAfter (p.precision.getD 0) c
    if maxPrecision < n then stop .tooWide
    else ([], some (.precision { p with precision := some n }))
  else stepLetter p c

/-- A character that may be a flag. -/
def stepFlags (p : Placeholder) (c : Char) : Step :=
  match flag? p c with
  | some p => ([], some (.flags p))
  | none => if c = '*' then stop .widthFromValue else stepWidth p c

/-- What a character leads to. -/
def step (c : Char) : Progress → Step
  | .outside => if c = '%' then ([], some .percent) else ([.literal c], some .outside)
  | .percent =>
    if c = '%' then ([.literal '%'], some .outside)
    else if c = '(' then ([], some (.key 1 []))
    else stepFlags {} c
  | .key depth read =>
    if c = '(' then ([], some (.key (depth + 1) (c :: read)))
    else if c = ')' then
      if depth = 1 then ([.lookup (some (String.ofList read.reverse))], some (.flags {}))
      else ([], some (.key (depth - 1) (c :: read)))
    else ([], some (.key depth (c :: read)))
  | .flags p => stepFlags p c
  | .width p => stepWidth p c
  | .point p => if c = '*' then stop .widthFromValue else stepPrecision p c
  | .precision p => stepPrecision p c
  | .size p => ([.place { p with conversion := c }], some .outside)

/-- What the end of the template leads to. -/
def finish : Progress → List Token
  | .outside => []
  | .key .. => [.lookup none, .refuse .openKey]
  | _ => [.refuse .unfinished]

/-- The tokens of the rest of a template. -/
def tokensFrom : Progress → List Char → List Token
  | s, [] => finish s
  | s, c :: rest =>
    match step c s with
    | (tokens, none) => tokens
    | (tokens, some s) => tokens ++ tokensFrom s rest

/-- The tokens of a template. -/
def tokens (template : String) : List Token := tokensFrom .outside template.toList

end Template

end DistributedVector
