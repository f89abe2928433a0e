import DistributedVector.Text.Quoted

/-!
# Keys

Contexts, functions and expression shapes are identified by keys: texts, numbers and tuples of
keys. A key has a written form, which is hashed for long kernel names and shown in log records.

## Main definitions

* `Key` — texts, numbers and tuples of keys
* `Key.render` — the written form: texts quoted, tuples in parentheses, a comma after a lone entry
-/

namespace DistributedVector

/-- A key made of texts, numbers and tuples. -/
inductive Key
  | text (s : String)
  | number (n : Int)
  | tuple (items : List Key)
  deriving Inhabited

namespace Key

mutual

/-- Whether two keys are the same. -/
def beq : Key → Key → Bool
  | text s, text t => s == t
  | number m, number n => m == n
  | tuple ks, tuple ls => beqAll ks ls
  | _, _ => false

/-- Whether two lists of keys are the same. -/
def beqAll : List Key → List Key → Bool
  | [], [] => true
  | k :: ks, l :: ls => beq k l && beqAll ks ls
  | _, _ => false

end

mutual

theorem eq_of_beq : (k l : Key) → beq k l = true → k = l
  | text s, text t, h => by simpa [beq] using h
  | number m, number n, h => by simpa [beq] using h
  | tuple ks, tuple ls, h => by rw [eq_of_beqAll ks ls (by simpa [beq] using h)]
  | text _, number _, h => by simp [beq] at h
  | text _, tuple _, h => by simp [beq] at h
  | number _, text _, h => by simp [beq] at h
  | number _, tuple _, h => by simp [beq] at h
  | tuple _, text _, h => by simp [beq] at h
  | tuple _, number _, h => by simp [beq] at h

theorem eq_of_beqAll : (ks ls : List Key) → beqAll ks ls = true → ks = ls
  | [], [], _ => rfl
  | k :: ks, l :: ls, h => by
    simp only [beqAll, Bool.and_eq_true] at h
    rw [eq_of_beq k l h.1, eq_of_beqAll ks ls h.2]
  | [], _ :: _, h => by simp [beqAll] at h
  | _ :: _, [], h => by simp [beqAll] at h

end

mutual

theorem beq_self : (k : Key) → beq k k = true
  | text _ => by simp [beq]
  | number _ => by simp [beq]
  | tuple ks => by simp [beq, beqAll_self ks]

theorem beqAll_self : (ks : List Key) → beqAll ks ks = true
  | [] => by simp [beqAll]
  | k :: ks => by simp [beqAll, beq_self k, beqAll_self ks]

end

instance : DecidableEq Key := fun k l =>
  if h : beq k l = true then isTrue (eq_of_beq k l h)
  else isFalse fun e => h (e ▸ beq_self k)

mutual

/-- The characters of the written form of a key. -/
def renderChars : Key → List Char
  | text s => Text.quoteChars s.toList
  | number n => (toString n).toList
  | tuple items => '(' :: renderItems items ++ [')']

/-- The characters of the entries of a tuple: separated by a comma and a blank, and with a comma
after a lone entry. -/
def renderItems : List Key → List Char
  | [] => []
  | [k] => renderChars k ++ [',']
  | k :: rest => renderChars k ++ renderTail rest

/-- The characters of the entries after the first, each led by a comma and a blank. -/
def renderTail : List Key → List Char
  | [] => []
  | k :: rest => ',' :: ' ' :: renderChars k ++ renderTail rest

end

/-- The written form of a key. -/
def render (k : Key) : String := String.ofList k.renderChars

end Key

end DistributedVector
