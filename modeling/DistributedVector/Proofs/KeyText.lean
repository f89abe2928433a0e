import DistributedVector.Key
import Mathlib

/-!
# Written keys

The written form of a key determines the key. Every part of it can be read from the front without
knowing where it ends: a text ends at its own quote, an escape says by its second character how
many digits follow, and a number ends where a tuple goes on or closes.

## Main definitions

* `Text.readEscape` — the first character behind a quote and what follows it
* `Key.Stops` — what may follow a key
* `Key.kindOf` — the kind of a key by its first character

## Main results

* `Text.quoteChars_append_injective` — a quoted text determines the text and its end
* `Key.render_injective` — keys with one written form are equal
-/

namespace DistributedVector

namespace Text

/-- The number written by hexadecimal digits. -/
def hexValue (digits : List Char) : Nat :=
  digits.foldl (fun n c => 16 * n + (if c.isDigit then c.toNat - 48 else c.toNat - 87)) 0

theorem hexValue_hexDigits {width n : Nat} (h : n < 16 ^ width) :
    hexValue (hexDigits width n) = n := by
  induction width generalizing n with
  | zero => simp_all [hexDigits, hexValue]
  | succ width ih =>
    have hdigit : ∀ d : Fin 16, (if (hexDigit d).isDigit then (hexDigit d).toNat - 48
        else (hexDigit d).toNat - 87) = (d : Nat) := by decide
    have hhigh := ih (n := n / 16) (by rw [Nat.pow_succ] at h; omega)
    have hlow := hdigit ⟨n % 16, Nat.mod_lt n (by decide)⟩
    rw [hexValue] at hhigh
    rw [hexDigits, hexValue, List.foldl_append, hhigh, List.foldl_cons, List.foldl_nil, hlow]
    exact Nat.div_add_mod n 16

/-- Reads a character written by `width` digits. -/
def readCode (width : Nat) (s : List Char) : Char × List Char :=
  (Char.ofNat (hexValue (s.take width)), s.drop width)

theorem readCode_append {width : Nat} {c : Char} (h : c.toNat < 16 ^ width) (rest : List Char) :
    readCode width (hexDigits width c.toNat ++ rest) = (c, rest) := by
  have hlength := length_hexDigits width c.toNat
  rw [readCode, List.take_left' hlength, List.drop_left' hlength, hexValue_hexDigits h,
    Char.ofNat_toNat]

/-- Reads what is written behind a backslash. -/
def readBackslash : List Char → Option (Char × List Char)
  | [] => none
  | c :: rest =>
    if c = 'n' then some ('\n', rest)
    else if c = 'r' then some ('\r', rest)
    else if c = 't' then some ('\t', rest)
    else if c = 'x' then some (readCode 2 rest)
    else if c = 'u' then some (readCode 4 rest)
    else if c = 'U' then some (readCode 8 rest)
    else some (c, rest)

/-- Reads one character of a quoted text. -/
def readEscape : List Char → Option (Char × List Char)
  | [] => none
  | c :: rest => if c = '\\' then readBackslash rest else some (c, rest)

theorem toNat_lt (c : Char) : c.toNat < 0x110000 := by
  have h := c.valid
  simp only [UInt32.isValidChar, Nat.isValidChar] at h
  simp only [Char.toNat]
  omega

theorem readEscape_escapeCode (c : Char) (rest : List Char) :
    readEscape (escapeCode c ++ rest) = some (c, rest) := by
  have hc := toNat_lt c
  rw [escapeCode]
  split_ifs with h2 h4
  · simp [readEscape, readBackslash, readCode_append (show c.toNat < 16 ^ 2 from h2)]
  · simp [readEscape, readBackslash, readCode_append (show c.toNat < 16 ^ 4 from h4)]
  · simp [readEscape, readBackslash, readCode_append (show c.toNat < 16 ^ 8 by omega)]

theorem quoteMark_eq (s : List Char) : quoteMark s = '\'' ∨ quoteMark s = '"' := by
  rw [quoteMark]
  split_ifs <;> simp

/-- What is written for a character can be read back. -/
theorem readEscape_escape {q : Char} (hq : q = '\'' ∨ q = '"') (c : Char) (rest : List Char) :
    readEscape (escape q c ++ rest) = some (c, rest) := by
  rw [escape]
  -- the character is escaped by a backslash, written by its own letter, as it is, or by its code
  split_ifs with hquote hn hr ht hprintable
  · rcases hquote with rfl | rfl
    · rcases hq with rfl | rfl <;> simp [readEscape, readBackslash]
    · simp [readEscape, readBackslash]
  · simp [readEscape, readBackslash, hn]
  · simp [readEscape, readBackslash, hr]
  · simp [readEscape, readBackslash, ht]
  · simp [readEscape, (not_or.mp hquote).2]
  · exact readEscape_escapeCode c rest

theorem escape_append_injective {q c d : Char} {u v : List Char} (hq : q = '\'' ∨ q = '"')
    (h : escape q c ++ u = escape q d ++ v) : c = d ∧ u = v := by
  have h := congrArg readEscape h
  rw [readEscape_escape hq, readEscape_escape hq] at h
  simpa using h

/-- Inside quotes, the quote itself is never written first for a character. -/
theorem escape_append_ne {q : Char} (hq : q = '\'' ∨ q = '"') (c : Char) (u v : List Char) :
    escape q c ++ u ≠ q :: v := by
  have hbackslash : '\\' ≠ q := by rcases hq with rfl | rfl <;> decide
  intro h
  rw [escape, escapeCode] at h
  split_ifs at h with hquote <;> simp_all

theorem flatMap_escape_append_injective {q : Char} (hq : q = '\'' ∨ q = '"') {s t u v : List Char}
    (h : s.flatMap (escape q) ++ q :: u = t.flatMap (escape q) ++ q :: v) : s = t ∧ u = v := by
  induction s generalizing t with
  | nil =>
    cases t with
    | nil => simpa using h
    | cons d t =>
      rw [List.flatMap_cons, List.append_assoc] at h
      exact absurd h.symm (escape_append_ne hq d _ _)
  | cons c s ih =>
    cases t with
    | nil =>
      rw [List.flatMap_cons, List.append_assoc] at h
      exact absurd h (escape_append_ne hq c _ _)
    | cons d t =>
      simp only [List.flatMap_cons, List.append_assoc] at h
      obtain ⟨rfl, hrest⟩ := escape_append_injective hq h
      obtain ⟨rfl, rfl⟩ := ih hrest
      exact ⟨rfl, rfl⟩

/-- A quoted text determines the text and where it ends. -/
theorem quoteChars_append_injective {s t u v : List Char}
    (h : quoteChars s ++ u = quoteChars t ++ v) : s = t ∧ u = v := by
  simp only [quoteChars, List.cons_append, List.append_assoc, List.nil_append, List.cons.injEq] at h
  obtain ⟨hq, h⟩ := h
  rw [hq] at h
  exact flatMap_escape_append_injective (quoteMark_eq t) h

/-- The characters that numbers are written with. -/
def isNumeral (c : Char) : Bool := c = '-' || c.isDigit

theorem isNumeral_of_mem_toString {n : Int} {c : Char} (h : c ∈ (toString n).toList) :
    isNumeral c := by
  have hnat : ∀ m : Nat, c ∈ m.repr.toList → isNumeral c := fun m hm => by
    rw [Nat.toList_repr] at hm
    simp [isNumeral, Nat.isDigit_of_mem_toDigits (by decide) (le_refl 10) hm]
  cases n with
  | ofNat m => exact hnat m h
  | negSucc m =>
    have h : c ∈ ("-" ++ (m + 1).repr).toList := h
    rw [String.toList_append, List.mem_append] at h
    rcases h with h | h
    · simp_all [isNumeral]
    · exact hnat _ h

theorem toString_int_ne_nil (n : Int) : (toString n).toList ≠ [] := by
  cases n with
  | ofNat m =>
    show m.repr.toList ≠ []
    rw [Nat.toList_repr]
    exact Nat.toDigits_ne_nil
  | negSucc m =>
    show ("-" ++ (m + 1).repr).toList ≠ []
    simp

end Text

namespace Key

open Text

/-- What may follow a key: nothing, the next entry of a tuple, or the end of a tuple. -/
def Stops (u : List Char) : Prop := ∀ c ∈ u.head?, c = ',' ∨ c = ')'

@[simp] theorem stops_nil : Stops [] := by simp [Stops]

@[simp] theorem stops_cons {c : Char} {u : List Char} : Stops (c :: u) ↔ c = ',' ∨ c = ')' := by
  simp [Stops]

/-- A written number followed by something else can be read off. -/
theorem takeWhile_numeral {u : List Char} (n : Int) (hu : Stops u) :
    ((toString n).toList ++ u).takeWhile isNumeral = (toString n).toList := by
  rw [List.takeWhile_append_of_pos fun c hc => isNumeral_of_mem_toString hc]
  cases u with
  | nil => simp
  | cons c u => rcases stops_cons.mp hu with rfl | rfl <;> simp [isNumeral]

theorem toString_append_injective {m n : Int} {u v : List Char} (hu : Stops u) (hv : Stops v)
    (h : (toString m).toList ++ u = (toString n).toList ++ v) : m = n ∧ u = v := by
  -- the number goes on as long as there are characters of numbers
  have htake := congrArg (List.takeWhile isNumeral) h
  rw [takeWhile_numeral m hu, takeWhile_numeral n hv] at htake
  rw [htake] at h
  exact ⟨Int.repr_inj.mp (String.toList_inj.mp htake), List.append_cancel_left h⟩

/-- Texts, numbers and tuples by number. -/
def kind : Key → Nat
  | text _ => 0
  | number _ => 1
  | tuple _ => 2

/-- The kind of a key by the first character that is written for it. -/
def kindOf (c : Char) : Nat := if c = '(' then 2 else if isNumeral c then 1 else 0

theorem exists_lead (k : Key) :
    ∃ c rest, k.renderChars = c :: rest ∧ kindOf c = k.kind ∧ c ≠ ')' := by
  cases k with
  | text s =>
    have hquote := quoteMark_eq s.toList
    have hlead : kindOf (quoteMark s.toList) = 0 ∧ quoteMark s.toList ≠ ')' := by
      rcases hquote with h | h <;> rw [h] <;> decide
    exact ⟨_, _, by rw [renderChars, quoteChars]; rfl, hlead⟩
  | number n =>
    obtain ⟨c, rest, h⟩ := List.exists_cons_of_ne_nil (toString_int_ne_nil n)
    have hc : isNumeral c := isNumeral_of_mem_toString (n := n) (h ▸ List.mem_cons_self)
    have hopen : c ≠ '(' := by rintro rfl; exact absurd hc (by decide)
    have hclose : c ≠ ')' := by rintro rfl; exact absurd hc (by decide)
    exact ⟨c, rest, by rw [renderChars, h], by simp [kindOf, kind, hopen, hc], hclose⟩
  | tuple ks => exact ⟨'(', _, by rw [renderChars]; rfl, rfl, by decide⟩

/-- Keys that are written alike are of one kind. -/
theorem kind_eq_of_append_eq {k l : Key} {u v : List Char}
    (h : k.renderChars ++ u = l.renderChars ++ v) : k.kind = l.kind := by
  obtain ⟨c, s, hk, hc, -⟩ := exists_lead k
  obtain ⟨d, t, hl, hd, -⟩ := exists_lead l
  rw [hk, hl] at h
  obtain ⟨rfl, -⟩ := List.cons.inj h
  exact hc.symm.trans hd

/-- No key starts like the end of a tuple. -/
theorem renderChars_append_ne (k : Key) (u v : List Char) : k.renderChars ++ u ≠ ')' :: v := by
  obtain ⟨c, s, hk, -, hc⟩ := exists_lead k
  rw [hk]
  exact fun h => hc (List.cons.inj h).1

/-- What is written behind the first entry of a tuple: a lone entry has a comma. -/
def renderRest : List Key → List Char
  | [] => [',']
  | ks => renderTail ks

theorem renderItems_cons (k : Key) (ks : List Key) :
    renderItems (k :: ks) = k.renderChars ++ renderRest ks := by
  cases ks <;> simp [renderItems, renderRest]

theorem stops_renderTail (ks : List Key) (u : List Char) : Stops (renderTail ks ++ ')' :: u) := by
  cases ks <;> simp [renderTail]

theorem stops_renderRest (ks : List Key) (u : List Char) : Stops (renderRest ks ++ ')' :: u) := by
  cases ks <;> simp [renderRest, renderTail]

mutual

/-- A written key determines the key and where it ends. -/
theorem renderChars_append_injective : (k l : Key) → ∀ {u v : List Char}, Stops u → Stops v →
    k.renderChars ++ u = l.renderChars ++ v → k = l ∧ u = v
  | text s, text t, u, v, _, _, h => by
    obtain ⟨hst, rfl⟩ := quoteChars_append_injective h
    exact ⟨congrArg text (String.toList_inj.mp hst), rfl⟩
  | number m, number n, u, v, hu, hv, h => by
    obtain ⟨rfl, rfl⟩ := toString_append_injective hu hv h
    exact ⟨rfl, rfl⟩
  | tuple ks, tuple ls, u, v, _, _, h => by
    simp only [renderChars, List.cons_append, List.append_assoc, List.nil_append,
      List.cons.injEq, true_and] at h
    obtain ⟨rfl, rfl⟩ := renderItems_append_injective ks ls h
    exact ⟨rfl, rfl⟩
  | text _, number _, u, v, _, _, h | text _, tuple _, u, v, _, _, h
  | number _, text _, u, v, _, _, h | number _, tuple _, u, v, _, _, h
  | tuple _, text _, u, v, _, _, h | tuple _, number _, u, v, _, _, h => by
    exact absurd (kind_eq_of_append_eq h) (by simp [kind])

theorem renderItems_append_injective : (ks ls : List Key) → ∀ {u v : List Char},
    renderItems ks ++ ')' :: u = renderItems ls ++ ')' :: v → ks = ls ∧ u = v
  | [], [], u, v, h => by simpa [renderItems] using h
  | k :: ks, l :: ls, u, v, h => by
    rw [renderItems_cons, renderItems_cons, List.append_assoc, List.append_assoc] at h
    obtain ⟨rfl, hrest⟩ := renderChars_append_injective k l (stops_renderRest ks u)
      (stops_renderRest ls v) h
    -- a lone entry has a comma and then the end, where a second entry would have to start
    cases ks with
    | nil =>
      cases ls with
      | nil => simpa [renderRest] using hrest
      | cons l ls => simp [renderRest, renderTail] at hrest
    | cons k' ks =>
      cases ls with
      | nil => simp [renderRest, renderTail] at hrest
      | cons l' ls =>
        obtain ⟨hks, rfl⟩ := renderTail_append_injective (k' :: ks) (l' :: ls) hrest
        exact ⟨congrArg _ hks, rfl⟩
  | [], l :: ls, u, v, h => by
    rw [renderItems_cons, List.append_assoc] at h
    exact absurd h.symm (renderChars_append_ne l _ _)
  | k :: ks, [], u, v, h => by
    rw [renderItems_cons, List.append_assoc] at h
    exact absurd h (renderChars_append_ne k _ _)

theorem renderTail_append_injective : (ks ls : List Key) → ∀ {u v : List Char},
    renderTail ks ++ ')' :: u = renderTail ls ++ ')' :: v → ks = ls ∧ u = v
  | [], [], u, v, h => by simpa [renderTail] using h
  | k :: ks, l :: ls, u, v, h => by
    simp only [renderTail, List.cons_append, List.append_assoc, List.cons.injEq, true_and] at h
    obtain ⟨rfl, hrest⟩ := renderChars_append_injective k l (stops_renderTail ks u)
      (stops_renderTail ls v) h
    obtain ⟨rfl, rfl⟩ := renderTail_append_injective ks ls hrest
    exact ⟨rfl, rfl⟩
  | [], _ :: _, _, _, h | _ :: _, [], _, _, h => by simp [renderTail] at h

end

/-- Keys with one written form are equal. -/
theorem render_injective {k l : Key} (h : k.render = l.render) : k = l := by
  have h : k.renderChars = l.renderChars := String.ofList_inj.mp h
  exact (renderChars_append_injective k l (u := []) (v := []) stops_nil stops_nil (by simp [h])).1

end Key

end DistributedVector
