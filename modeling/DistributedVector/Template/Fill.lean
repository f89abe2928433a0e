import DistributedVector.Task
import DistributedVector.Template.Value

/-!
# Filling in templates

A template is filled in with one value, for which there has to be one placeholder, or with the
elements of a value, which placeholders look up by their keys. An element is looked up when its
placeholder is reached, so that everything before it has been written by then.

## Main definitions

* `Template.fill` — the text of a template with its values filled in
-/

namespace DistributedVector

namespace Template

/-- What a template is filled in with: a value, and its elements by key if it has any. -/
structure Filling (σ : Type) where
  value : Value
  element? : Option (String → Task σ Value)

/-- Works off tokens. `current` is the value that the next placeholder stands for, unless it has
been written already; only a value with elements may be left over. -/
def fillTokens {σ : Type} (element? : Option (String → Task σ Value)) :
    Option Value → List Token → Task σ (List Char)
  | current, [] => do
    if current.isSome && element?.isNone then throw (.template .unusedValue)
    return []
  | current, .literal c :: rest => do return c :: (← fillTokens element? current rest)
  | current, .lookup key :: rest =>
    match element?, key with
    | none, _ => throw (.template .noElements)
    | some _, none => fillTokens element? current rest
    | some element, some key => do
      let v ← element key
      fillTokens element? (some v) rest
  | current, .place p :: rest =>
    match current with
    | none => throw (.template .noValue)
    | some v => do
      let written ← Task.ofExcept (p.write v)
      return written ++ (← fillTokens element? none rest)
  | _, .refuse f :: _ => throw (.template f)

/-- The text of a template with its values filled in. -/
def fill {σ : Type} (template : String) (x : Filling σ) : Task σ String := do
  return String.ofList (← fillTokens x.element? (some x.value) (tokens template))

end Template

end DistributedVector
