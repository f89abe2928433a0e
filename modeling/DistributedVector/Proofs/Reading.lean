import DistributedVector.Kernel.Reading
import Mathlib

/-!
# Reading kernel terms

The text of a kernel term shows operators, the names of the functions that are called, and
parameters, of which some are taken at the index. All of it can be read back from the front: an
operator is in parentheses of its own, and a name ends where no identifier goes on.

## Main definitions

* `Reading.leaves`, `Reading.called` — the parameters and the functions that a reading shows
* `Reading.chars` — a reading written as kernel text

## Main results

* `Reading.readTerm_chars`, `Reading.read_chars` — a reading that has been written can be read back
-/

namespace DistributedVector

namespace Text

theorem isWordChar_of_mem {s : String} (hs : isIdentifier s) {c : Char} (hc : c ∈ s.toList) :
    isWordChar c := by
  rw [isIdentifier] at hs
  cases hchars : s.toList with
  | nil => simp [hchars] at hc
  | cons a rest =>
    simp only [hchars, Bool.and_eq_true, List.all_eq_true] at hs
    rw [hchars, List.mem_cons] at hc
    rcases hc with rfl | hc
    · simp [isWordChar, hs.1]
    · simp [isWordChar, hs.2 c hc]

theorem exists_cons_of_isIdentifier {s : String} (hs : isIdentifier s) :
    ∃ c rest, s.toList = c :: rest ∧ isWordChar c := by
  cases hchars : s.toList with
  | nil => simp [isIdentifier, hchars] at hs
  | cons c rest => exact ⟨c, rest, rfl, isWordChar_of_mem hs (hchars ▸ List.mem_cons_self)⟩

@[simp] theorem behind?_append {α : Type} [DecidableEq α] (expected s : List α) :
    behind? expected (expected ++ s) = some s := by
  induction expected with
  | nil => rfl
  | cons c expected ih => simp [behind?, ih]

end Text

namespace Reading

open Text

variable {α β : Type}

mutual

/-- Replaces the leaves of a reading. -/
def map (f : α → β) : Reading α → Reading β
  | leaf a => leaf (f a)
  | unary op t => unary op (t.map f)
  | binary op l r => binary op (l.map f) (r.map f)
  | call name args => call name (mapArgs f args)

/-- Replaces the leaves of arguments. -/
def mapArgs (f : α → β) : List (Reading α) → List (Reading β)
  | [] => []
  | t :: rest => t.map f :: mapArgs f rest

end

mutual

/-- The leaves from left to right. -/
def leaves : Reading α → List α
  | leaf a => [a]
  | unary _ t => t.leaves
  | binary _ l r => l.leaves ++ r.leaves
  | call _ args => leavesOfArgs args

/-- The leaves of arguments. -/
def leavesOfArgs : List (Reading α) → List α
  | [] => []
  | t :: rest => t.leaves ++ leavesOfArgs rest

end

mutual

/-- The names of the functions that are called. -/
def called : Reading α → List String
  | leaf _ => []
  | unary _ t => t.called
  | binary _ l r => l.called ++ r.called
  | call name args => name :: calledInArgs args

/-- The names of the functions that are called in arguments. -/
def calledInArgs : List (Reading α) → List String
  | [] => []
  | t :: rest => t.called ++ calledInArgs rest

end

/-- A mention as kernel text. -/
def charsOfMention (m : Mention) : List Char :=
  match m.kind with
  | .vector => m.name.toList ++ "[idx]".toList
  | .scalar => m.name.toList

mutual

/-- A reading as kernel text. -/
def chars : Reading Mention → List Char
  | leaf m => charsOfMention m
  | unary op t => '(' :: (op.symbol.toList ++ (t.chars ++ [')']))
  | binary op l r => '(' :: (l.chars ++ ' ' :: (op.symbol.toList ++ ' ' :: (r.chars ++ [')'])))
  | call name args => name.toList ++ '(' :: (charsOfArgs args ++ [')'])

/-- Arguments as kernel text. -/
def charsOfArgs : List (Reading Mention) → List Char
  | [] => []
  | t :: rest => t.chars ++ charsOfMore rest

/-- Further arguments, each behind a comma. -/
def charsOfMore : List (Reading Mention) → List Char
  | [] => []
  | t :: rest => ',' :: ' ' :: (t.chars ++ charsOfMore rest)

end

/-- A reading whose names are identifiers, as they are in kernel text. -/
structure Written (t : Reading Mention) : Prop where
  leaves : ∀ m ∈ t.leaves, isIdentifier m.name
  called : ∀ name ∈ t.called, isIdentifier name

/-- Arguments whose names are identifiers. -/
structure WrittenArgs (args : List (Reading Mention)) : Prop where
  leaves : ∀ m ∈ leavesOfArgs args, isIdentifier m.name
  called : ∀ name ∈ calledInArgs args, isIdentifier name

namespace Written

variable {op : BinaryOp} {l r : Reading Mention} {name : String} {ts : List (Reading Mention)}

theorem left (h : (binary op l r).Written) : l.Written :=
  ⟨fun m hm => h.leaves m (List.mem_append_left _ hm),
    fun name hname => h.called name (List.mem_append_left _ hname)⟩

theorem right (h : (binary op l r).Written) : r.Written :=
  ⟨fun m hm => h.leaves m (List.mem_append_right _ hm),
    fun name hname => h.called name (List.mem_append_right _ hname)⟩

theorem args (h : (call name ts).Written) : WrittenArgs ts :=
  ⟨h.leaves, fun name hname => h.called name (List.mem_cons_of_mem _ hname)⟩

end Written

namespace WrittenArgs

variable {t : Reading Mention} {rest : List (Reading Mention)}

theorem head (h : WrittenArgs (t :: rest)) : t.Written :=
  ⟨fun m hm => h.leaves m (List.mem_append_left _ hm),
    fun name hname => h.called name (List.mem_append_left _ hname)⟩

theorem tail (h : WrittenArgs (t :: rest)) : WrittenArgs rest :=
  ⟨fun m hm => h.leaves m (List.mem_append_right _ hm),
    fun name hname => h.called name (List.mem_append_right _ hname)⟩

end WrittenArgs

/-- What may follow a term: the end, a parenthesis that closes, an operator, a comma or a
semicolon. -/
def Stops : List Char → Prop
  | [] => True
  | c :: _ => c = ')' ∨ c = ' ' ∨ c = ',' ∨ c = ';'

theorem readSymbol_unary (op : UnaryOp) (s : List Char) :
    readSymbol UnaryOp.symbol UnaryOp.all (op.symbol.toList ++ s) = some (op, s) := by
  cases op <;> simp [readSymbol, UnaryOp.all, UnaryOp.symbol, behind?]

theorem readSymbol_binary (op : BinaryOp) (s : List Char) :
    readSymbol BinaryOp.symbol BinaryOp.all (op.symbol.toList ++ s) = some (op, s) := by
  cases op <;> simp [readSymbol, BinaryOp.all, BinaryOp.symbol, behind?]

/-- Neither a name nor a parenthesis looks like an operator of one operand. -/
theorem readSymbol_eq_none {c : Char} (hc : c = '(' ∨ isWordChar c) (s : List Char) :
    readSymbol UnaryOp.symbol UnaryOp.all (c :: s) = none := by
  have hne : ∀ op : UnaryOp, behind? op.symbol.toList (c :: s) = none := by
    intro op
    cases op <;> rcases hc with rfl | hc <;> simp [UnaryOp.symbol, behind?] <;> rintro rfl <;>
      revert hc <;> decide
  simp [readSymbol, hne]

theorem Stops.not_word {c : Char} {s : List Char} (h : Stops (c :: s)) : isWordChar c = false := by
  rcases h with rfl | rfl | rfl | rfl <;> decide

theorem readName_append {name : String} (hname : isIdentifier name) {s : List Char}
    (hs : ∀ c ∈ s.head?, isWordChar c = false) : readName (name.toList ++ s) = some (name, s) := by
  have hword : ∀ c ∈ name.toList, isWordChar c := fun c hc => isWordChar_of_mem hname hc
  have hstop : s.takeWhile isWordChar = [] ∧ s.dropWhile isWordChar = s := by
    cases s with
    | nil => exact ⟨rfl, rfl⟩
    | cons c s => simp [hs c rfl]
  rw [readName, List.takeWhile_append_of_pos hword, List.dropWhile_append_of_pos hword, hstop.1,
    hstop.2, List.append_nil, String.ofList_toList, if_pos hname]

/-- A term begins with a parenthesis or a name. -/
theorem exists_chars_cons : (t : Reading Mention) → t.Written →
    ∃ c s, t.chars = c :: s ∧ (c = '(' ∨ isWordChar c)
  | leaf m, ht => by
    obtain ⟨c, s, hname, hc⟩ := exists_cons_of_isIdentifier (ht.leaves m List.mem_cons_self)
    rw [chars, charsOfMention]
    split
    · exact ⟨c, s ++ "[idx]".toList, by rw [hname, List.cons_append], .inr hc⟩
    · exact ⟨c, s, hname, .inr hc⟩
  | unary _ _, _ => ⟨'(', _, rfl, .inl rfl⟩
  | binary _ _ _, _ => ⟨'(', _, rfl, .inl rfl⟩
  | call name args, ht => by
    obtain ⟨c, s, hname, hc⟩ := exists_cons_of_isIdentifier (ht.called name List.mem_cons_self)
    exact ⟨c, s ++ '(' :: (charsOfArgs args ++ [')']), by rw [chars, hname, List.cons_append],
      .inr hc⟩

theorem behind?_paren_of_word {c : Char} (hc : isWordChar c) (s : List Char) :
    behind? ['('] (c :: s) = none := by
  have hne : '(' ≠ c := by
    rintro rfl
    revert hc
    decide
  simp [behind?, hne]

theorem behind?_close {c : Char} (hc : c = '(' ∨ isWordChar c) (s : List Char) :
    behind? [')'] (c :: s) = none := by
  have hne : ')' ≠ c := by
    rintro rfl
    revert hc
    decide
  simp [behind?, hne]

/-- What follows a term opens neither arguments nor an entry. -/
theorem Stops.not_opening {s : List Char} (h : Stops s) :
    behind? ['('] s = none ∧ behind? "[idx]".toList s = none := by
  cases s with
  | nil => exact ⟨rfl, rfl⟩
  | cons c s => rcases h with rfl | rfl | rfl | rfl <;> exact ⟨rfl, rfl⟩

/-- A name that is no function is read as a parameter. -/
theorem readTerm_mention {m : Mention} (hm : isIdentifier m.name) (fuel : Nat) {s : List Char}
    (hs : Stops s) : readTerm (fuel + 1) (charsOfMention m ++ s) = some (leaf m, s) := by
  obtain ⟨kind, name⟩ := m
  obtain ⟨c, rest, hname, hc⟩ := exists_cons_of_isIdentifier hm
  obtain ⟨hparen, hentry⟩ := hs.not_opening
  have hword : ∀ s, behind? ['('] (name.toList ++ s) = none := fun s => by
    rw [hname, List.cons_append, behind?_paren_of_word hc]
  cases kind with
  | vector =>
    have hread : readName (name.toList ++ ("[idx]".toList ++ s)) =
        some (name, "[idx]".toList ++ s) :=
      readName_append hm fun c hc => by cases hc; decide
    rw [charsOfMention, List.append_assoc, readTerm, hword]
    simp only [hread, Option.bind_eq_bind, Option.bind_some, behind?_append]
    rfl
  | scalar =>
    have hread : readName (name.toList ++ s) = some (name, s) := by
      refine readName_append hm fun c hc => ?_
      cases s with
      | nil => cases hc
      | cons d s => cases hc; exact hs.not_word
    rw [charsOfMention, readTerm, hword]
    simp only [hread, Option.bind_eq_bind, Option.bind_some, hparen, hentry]
    rfl

/-- What follows an argument ends it. -/
theorem stops_charsOfMore (rest : List (Reading Mention)) (s : List Char) :
    Stops (charsOfMore rest ++ ')' :: s) := by
  cases rest with
  | nil => exact .inl rfl
  | cons t rest => exact .inr (.inr (.inl rfl))

mutual

/-- A term that has been written is read back, whatever follows it. -/
theorem readTerm_chars : (t : Reading Mention) → t.Written → ∀ (fuel : Nat) (s : List Char),
    t.chars.length < fuel → Stops s → readTerm fuel (t.chars ++ s) = some (t, s)
  | leaf m, ht, fuel + 1, s, _, hs => readTerm_mention (ht.leaves m List.mem_cons_self) fuel hs
  | unary op t, ht, fuel + 1, s, hfuel, _ => by
    have hlt : t.chars.length < fuel := by simp [chars] at hfuel; omega
    have hopen : behind? ['('] ((unary op t).chars ++ s) =
        some (op.symbol.toList ++ (t.chars ++ ')' :: s)) := by simp [chars, behind?]
    have hclose : behind? [')'] (')' :: s) = some s := behind?_append [')'] s
    rw [readTerm, hopen]
    simp only [readSymbol_unary, readTerm_chars t ⟨ht.leaves, ht.called⟩ fuel (')' :: s) hlt
      (.inl rfl), hclose, Option.bind_eq_bind, Option.bind_some, Option.pure_def]
  | binary op l r, ht, fuel + 1, s, hfuel, _ => by
    have hllt : l.chars.length < fuel := by simp [chars] at hfuel; omega
    have hrlt : r.chars.length < fuel := by simp [chars] at hfuel; omega
    have hopen : behind? ['('] ((binary op l r).chars ++ s) =
        some (l.chars ++ ' ' :: (op.symbol.toList ++ ' ' :: (r.chars ++ ')' :: s))) := by
      simp [chars, behind?]
    have hspace : ∀ s, behind? [' '] (' ' :: s) = some s := behind?_append [' ']
    have hclose : behind? [')'] (')' :: s) = some s := behind?_append [')'] s
    -- the left operand begins like no operator of one operand
    have hnone : readSymbol UnaryOp.symbol UnaryOp.all
        (l.chars ++ ' ' :: (op.symbol.toList ++ ' ' :: (r.chars ++ ')' :: s))) = none := by
      obtain ⟨c, rest, hchars, hc⟩ := exists_chars_cons l ht.left
      rw [hchars, List.cons_append, readSymbol_eq_none hc]
    have hleft := readTerm_chars l ht.left fuel
      (' ' :: (op.symbol.toList ++ ' ' :: (r.chars ++ ')' :: s))) hllt (Or.inr (Or.inl rfl))
    have hright := readTerm_chars r ht.right fuel (')' :: s) hrlt (Or.inl rfl)
    rw [readTerm, hopen]
    simp only [hnone, hleft, hspace, readSymbol_binary, hright, hclose, Option.bind_eq_bind,
      Option.bind_some, Option.pure_def]
  | call name args, ht, fuel + 1, s, hfuel, _ => by
    have hname : isIdentifier name := ht.called name List.mem_cons_self
    have hlt : (charsOfArgs args).length + 1 < fuel := by
      obtain ⟨c, rest, hchars, -⟩ := exists_cons_of_isIdentifier hname
      simp [chars] at hfuel
      omega
    have hread : readName ((call name args).chars ++ s) =
        some (name, '(' :: (charsOfArgs args ++ ')' :: s)) := by
      rw [chars, List.append_assoc, List.cons_append, List.append_assoc]
      exact readName_append hname fun c hc => by cases hc; decide
    have hword : behind? ['('] ((call name args).chars ++ s) = none := by
      obtain ⟨c, rest, hchars, hc⟩ := exists_cons_of_isIdentifier hname
      rw [chars, hchars, List.cons_append, List.cons_append, behind?_paren_of_word hc]
    -- the parenthesis behind the name tells a call from a parameter
    have hopen : behind? ['('] ('(' :: (charsOfArgs args ++ ')' :: s)) =
        some (charsOfArgs args ++ ')' :: s) := behind?_append ['('] _
    rw [readTerm, hword]
    simp only [hread, hopen, readArgs_chars args ht.args fuel s hlt, Option.bind_eq_bind,
      Option.bind_some, Option.pure_def]

theorem readArgs_chars : (args : List (Reading Mention)) → WrittenArgs args →
    ∀ (fuel : Nat) (s : List Char), (charsOfArgs args).length + 1 < fuel →
    readArgs fuel (charsOfArgs args ++ ')' :: s) = some (args, s)
  | [], _, fuel + 1, s, _ => by simp [charsOfArgs, readArgs, behind?]
  | t :: rest, hargs, fuel + 1, s, hfuel => by
    have htlt : t.chars.length < fuel := by simp [charsOfArgs] at hfuel; omega
    have hrestlt : (charsOfMore rest).length < fuel := by simp [charsOfArgs] at hfuel; omega
    have hnone : behind? [')'] (t.chars ++ (charsOfMore rest ++ ')' :: s)) = none := by
      obtain ⟨c, rest, hchars, hc⟩ := exists_chars_cons t hargs.head
      rw [hchars, List.cons_append, behind?_close hc]
    rw [charsOfArgs, List.append_assoc, readArgs, hnone]
    simp only [readTerm_chars t hargs.head fuel _ htlt (stops_charsOfMore rest s),
      readMore_chars rest hargs.tail fuel s hrestlt, Option.bind_eq_bind, Option.bind_some,
      Option.pure_def]

theorem readMore_chars : (args : List (Reading Mention)) → WrittenArgs args →
    ∀ (fuel : Nat) (s : List Char), (charsOfMore args).length < fuel →
    readMore fuel (charsOfMore args ++ ')' :: s) = some (args, s)
  | [], _, fuel + 1, s, _ => by simp [charsOfMore, readMore, behind?]
  | t :: rest, hargs, fuel + 1, s, hfuel => by
    have htlt : t.chars.length < fuel := by simp [charsOfMore] at hfuel; omega
    have hrestlt : (charsOfMore rest).length < fuel := by simp [charsOfMore] at hfuel; omega
    have hnone : behind? [')'] (charsOfMore (t :: rest) ++ ')' :: s) = none := by
      simp [charsOfMore, behind?]
    have hcomma : behind? [',', ' '] (charsOfMore (t :: rest) ++ ')' :: s) =
        some (t.chars ++ (charsOfMore rest ++ ')' :: s)) := by simp [charsOfMore, behind?]
    rw [readMore, hnone]
    simp only [hcomma, readTerm_chars t hargs.head fuel _ htlt (stops_charsOfMore rest s),
      readMore_chars rest hargs.tail fuel s hrestlt, Option.bind_eq_bind, Option.bind_some,
      Option.pure_def]

end

/-- A term that has been written is read back. -/
theorem read_chars {t : Reading Mention} (ht : t.Written) {s : String} (hs : s.toList = t.chars) :
    read s = some t := by
  have hread := readTerm_chars t ht (t.chars.length + 1) [] (Nat.lt_succ_self _) trivial
  rw [List.append_nil] at hread
  rw [read, hs, hread]

end Reading

end DistributedVector
