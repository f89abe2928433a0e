import DistributedVector.Proofs.Compilable
import DistributedVector.Proofs.Scope

/-!
# Declarations of user functions

A kernel declares the user functions that it calls. They are collected in one walk over the tree
from left to right, a call after its arguments, and a function that is known already is passed over.
So each function is declared once, and functions are in the order in which their first calls are
completed.

A position in a tree is the list of the numbers of the operands on the way to it from the root. The
position of a call stays in sight here, since the same function can be called in many places.

## Main definitions

* `Before` — which of two positions is completed first
* `Formula.operands`, `Formula.part?`, `Formula.UsesAt` — what is found at a position
* `Formula.Declares` — the declarations that a formula needs, in order
* `Formula.collect` — the walk that collects user functions

## Main results

* `Formula.pairwise_completed` — calls in the order in which they are completed
* `Formula.declares_iff` — the declarations of a kernel are the only right ones
* `Formula.collect_nil` — they are what the walk collects
* `Formula.declared_before` — functions in arguments
* `KernelSource.declares_once` — all together
-/

namespace DistributedVector

/-! ## Positions -/

/-- The order in which positions are completed: what is inside of a node before the node, and what
is in an operand before what is in the operands to the right of it. -/
inductive Before : List ℕ → List ℕ → Prop
  | inside (i : ℕ) (p : List ℕ) : Before (i :: p) []
  | left {i j : ℕ} (h : i < j) (p q : List ℕ) : Before (i :: p) (j :: q)
  | same (i : ℕ) {p q : List ℕ} (h : Before p q) : Before (i :: p) (i :: q)

theorem Before.asymm {p q : List ℕ} (h : Before p q) : ¬ Before q p := by
  induction h with
  | inside i p => nofun
  | left hlt p q =>
    intro h
    cases h with
    | left hlt' => omega
    | same => omega
  | same i _ ih =>
    intro h
    cases h with
    | left hlt' => omega
    | same _ h => exact ih h

namespace Formula

variable {ν : Type} {f : Formula ν} {u v : UserFunction} {p q r : List ℕ}

/-- The operands of a node, or the arguments of a call. -/
def operands : Formula ν → List (Formula ν)
  | vector _ | scalar _ _ => []
  | unary _ e => [e]
  | binary _ l r => [l, r]
  | call _ args => args

mutual

/-- What holds of a node if it holds of its operands holds of all formulas. -/
theorem of_operands {P : Formula ν → Prop} (node : ∀ f : Formula ν, (∀ e ∈ f.operands, P e) → P f) :
    (f : Formula ν) → P f
  | vector v => node (vector v) (by simp [operands])
  | scalar x t => node (scalar x t) (by simp [operands])
  | unary tag e => node (unary tag e) (by simpa [operands] using of_operands node e)
  | binary tag l r =>
    node (binary tag l r) (by simpa [operands] using ⟨of_operands node l, of_operands node r⟩)
  | call g args => node (call g args) (forall_of_operands node args)

theorem forall_of_operands {P : Formula ν → Prop}
    (node : ∀ f : Formula ν, (∀ e ∈ f.operands, P e) → P f) : (args : List (Formula ν)) →
    ∀ e ∈ args, P e
  | [] => by simp
  | e :: rest => List.forall_mem_cons.mpr ⟨of_operands node e, forall_of_operands node rest⟩

end

/-- What is at a position, if the formula has the position. -/
def part? (f : Formula ν) : List ℕ → Option (Formula ν)
  | [] => some f
  | i :: p => f.operands[i]?.bind fun e => e.part? p

/-- A function is called at a position, or one with the same key. -/
def UsesAt (f : Formula ν) (p : List ℕ) (u : UserFunction) : Prop :=
  ∃ v args, f.part? p = some (.call (.user v) args) ∧ v.key = u.key

/-- The declarations that a formula needs. Their keys are different, they are those of the functions
that are called somewhere, and a function is declared before another one if some call of it is
completed before all calls of the other one. -/
structure Declares (f : Formula ν) (declared : List UserFunction) : Prop where
  apart : declared.Pairwise fun u v => u.key ≠ v.key
  called : ∀ u, (∃ v ∈ declared, v.key = u.key) ↔ ∃ p, f.UsesAt p u
  inOrder : declared.Pairwise fun u v => ∃ p, f.UsesAt p u ∧ ∀ q, f.UsesAt q v → Before p q

theorem usesAt_iff : f.UsesAt p u ↔ ∃ args, f.part? p = some (.call (.user u) args) := by
  constructor
  · rintro ⟨v, args, hpart, hkey⟩
    obtain rfl := UserFunction.key_injective hkey
    exact ⟨args, hpart⟩
  · rintro ⟨args, hpart⟩
    exact ⟨u, args, hpart, rfl⟩

/-! ## Calls with their positions -/

/-- The user function that a node calls itself. -/
def called? : Formula ν → Option UserFunction
  | call g _ => g.user?
  | _ => none

mutual

/-- Calls of user functions with their positions, in the order in which they are completed. -/
def completed : Formula ν → List (List ℕ × UserFunction)
  | vector _ | scalar _ _ => []
  | unary _ e => e.completed.map (Prod.map (0 :: ·) id)
  | binary _ l r => l.completed.map (Prod.map (0 :: ·) id) ++ r.completed.map (Prod.map (1 :: ·) id)
  | call g args => completedFrom 0 args ++ g.user?.toList.map (([], ·))

/-- The same for arguments that are numbered from `first`. -/
def completedFrom (first : ℕ) : List (Formula ν) → List (List ℕ × UserFunction)
  | [] => []
  | e :: rest => e.completed.map (Prod.map (first :: ·) id) ++ completedFrom (first + 1) rest

end

theorem completed_eq (f : Formula ν) :
    f.completed = completedFrom 0 f.operands ++ f.called?.toList.map (([], ·)) := by
  cases f <;> simp [completed, completedFrom, operands, called?]

theorem userCalls_eq_operands (f : Formula ν) :
    f.userCalls = f.operands.flatMap userCalls ++ f.called?.toList := by
  cases f <;> simp [userCalls, operands, called?, userCallsOfArgs_eq_flatMap]

theorem part?_eq_some_cons {i : ℕ} {g : Formula ν} :
    f.part? (i :: p) = some g ↔ ∃ e, f.operands[i]? = some e ∧ e.part? p = some g := by
  rw [part?, Option.bind_eq_some_iff]

theorem called?_eq_some : f.called? = some u ↔ ∃ args, f = .call (.user u) args := by
  cases f with
  | call g args => cases g <;> simp [called?, Function.user?]
  | _ => simp [called?]

theorem map_completedFrom {args : List (Formula ν)} (first : ℕ)
    (h : ∀ e ∈ args, e.completed.map Prod.snd = e.userCalls) :
    (completedFrom first args).map Prod.snd = args.flatMap userCalls := by
  induction args generalizing first with
  | nil => rfl
  | cons e rest ih =>
    obtain ⟨he, hrest⟩ := List.forall_mem_cons.mp h
    rw [completedFrom, List.map_append, ih _ hrest, List.flatMap_cons, ← he, List.map_map]
    rfl

/-- Without their positions these are the calls as they are collected. -/
theorem map_completed (f : Formula ν) : f.completed.map Prod.snd = f.userCalls := by
  induction f using of_operands with
  | node f ih =>
    rw [completed_eq, userCalls_eq_operands, List.map_append, map_completedFrom 0 ih, List.map_map]
    simp [Function.comp_def]

theorem mem_completedFrom {args : List (Formula ν)} {first : ℕ} {p : List ℕ} :
    (p, u) ∈ completedFrom first args ↔
      ∃ i e p', args[i]? = some e ∧ (p', u) ∈ e.completed ∧ p = (first + i) :: p' := by
  induction args generalizing first with
  | nil => simp [completedFrom]
  | cons e rest ih =>
    have hhead : (p, u) ∈ e.completed.map (Prod.map (first :: ·) id) ↔
        ∃ p', (p', u) ∈ e.completed ∧ p = first :: p' := by
      simp [Prod.map, eq_comm]
    rw [completedFrom, List.mem_append, hhead, ih]
    constructor
    · rintro (⟨p', hp', rfl⟩ | ⟨i, e', p', he', hp', rfl⟩)
      · exact ⟨0, e, p', rfl, hp', rfl⟩
      · exact ⟨i + 1, e', p', he', hp', by rw [Nat.add_assoc, Nat.add_comm 1]⟩
    · rintro ⟨i, e', p', he', hp', rfl⟩
      cases i with
      | zero =>
        obtain rfl : e = e' := Option.some_inj.mp he'
        exact .inl ⟨p', hp', rfl⟩
      | succ i => exact .inr ⟨i, e', p', he', hp', by rw [Nat.add_assoc, Nat.add_comm 1]⟩

/-- All calls are there, at their positions. -/
theorem mem_completed (f : Formula ν) (p : List ℕ) (u : UserFunction) :
    (p, u) ∈ f.completed ↔ f.UsesAt p u := by
  induction f using of_operands generalizing p with
  | node f ih =>
    rw [completed_eq, List.mem_append, mem_completedFrom, usesAt_iff]
    -- a call is at the node itself, or in the operand that the first number tells
    cases p with
    | nil => simp [part?, called?_eq_some]
    | cons i p =>
      simp only [part?_eq_some_cons]
      constructor
      · rintro (⟨j, e, p', he, hp', hp⟩ | h)
        · obtain ⟨rfl, rfl⟩ : i = 0 + j ∧ p = p' := List.cons.inj hp
          rw [Nat.zero_add]
          obtain ⟨args, hargs⟩ := usesAt_iff.mp ((ih e (List.mem_of_getElem? he) p).mp hp')
          exact ⟨args, e, he, hargs⟩
        · simp at h
      · rintro ⟨args, e, he, hargs⟩
        have hp := (ih e (List.mem_of_getElem? he) p).mpr (usesAt_iff.mpr ⟨args, hargs⟩)
        exact .inl ⟨i, e, p, he, hp, by rw [Nat.zero_add]⟩

theorem pairwise_completedFrom {args : List (Formula ν)} (first : ℕ)
    (h : ∀ e ∈ args, e.completed.Pairwise fun x y => Before x.1 y.1) :
    (completedFrom first args).Pairwise fun x y => Before x.1 y.1 := by
  induction args generalizing first with
  | nil => exact List.Pairwise.nil
  | cons e rest ih =>
    obtain ⟨he, hrest⟩ := List.forall_mem_cons.mp h
    rw [completedFrom]
    apply List.pairwise_append.mpr
    refine ⟨List.pairwise_map.mpr (he.imp fun h => .same first h), ih _ hrest, ?_⟩
    -- what is in this argument is to the left of all that is in the others
    rintro x hx ⟨q, v⟩ hy
    obtain ⟨⟨p, u⟩, -, rfl⟩ := List.mem_map.mp hx
    obtain ⟨i, e', q', -, -, rfl⟩ := mem_completedFrom.mp hy
    exact .left (by omega) p q'

/-- Positions come in the order in which they are completed. -/
theorem pairwise_completed (f : Formula ν) : f.completed.Pairwise fun x y => Before x.1 y.1 := by
  induction f using of_operands with
  | node f ih =>
    rw [completed_eq]
    apply List.pairwise_append.mpr
    refine ⟨pairwise_completedFrom 0 ih, ?_, ?_⟩
    · cases f.called? <;> simp
    · -- the node itself is completed last
      rintro ⟨p, u⟩ hx y hy
      obtain ⟨i, e, p', -, -, rfl⟩ := mem_completedFrom.mp hx
      obtain ⟨v, -, rfl⟩ := List.mem_map.mp hy
      exact .inside _ p'

/-! ## The first call of each function -/

/-- Of calls in order, those that are kept are in order, and each is before all calls of what is
kept behind it. -/
theorem pairwise_distinct {l : List (List ℕ × UserFunction)}
    (h : l.Pairwise fun x y => Before x.1 y.1) : (distinct (l.map Prod.snd)).Pairwise fun u v =>
      ∃ p, (p, u) ∈ l ∧ ∀ q, (q, v) ∈ l → Before p q := by
  induction l with
  | nil => exact List.Pairwise.nil
  | cons x rest ih =>
    obtain ⟨hfirst, hrest⟩ := List.pairwise_cons.mp h
    -- a function with another key has its calls behind the first call
    have hbehind : ∀ {v : UserFunction} {q : List ℕ}, v.key ≠ x.2.key → (q, v) ∈ x :: rest →
        (q, v) ∈ rest := by
      intro v q hkey hmem
      rcases List.mem_cons.mp hmem with rfl | hmem
      · exact absurd rfl hkey
      · exact hmem
    rw [List.map_cons, distinct]
    apply List.pairwise_cons.mpr
    constructor
    · -- the first call of all is before all calls of other functions
      intro v hv
      have hkey : v.key ≠ x.2.key := by simpa using (List.mem_filter.mp hv).2
      exact ⟨x.1, List.mem_cons_self, fun q hq => hfirst _ (hbehind hkey hq)⟩
    · apply ((ih hrest).filter _).imp_of_mem
      intro u v hu hv hbefore
      have hkey : v.key ≠ x.2.key := by simpa using (List.mem_filter.mp hv).2
      obtain ⟨p, hp, hall⟩ := hbefore
      exact ⟨p, List.mem_cons_of_mem x hp, fun q hq => hall q (hbehind hkey hq)⟩

theorem mem_userFunctions : u ∈ f.userFunctions ↔ ∃ p, f.UsesAt p u := by
  rw [userFunctions, mem_distinct, ← map_completed]
  simp [mem_completed]

/-- The declarations of a kernel are those that the formula needs. -/
theorem declares_userFunctions (f : Formula ν) : f.Declares f.userFunctions where
  apart := (nodup_distinct f.userCalls).imp fun hne hkey => hne (UserFunction.key_injective hkey)
  called u := by
    rw [← mem_userFunctions]
    constructor
    · rintro ⟨v, hv, hkey⟩
      rwa [← UserFunction.key_injective hkey]
    · exact fun hu => ⟨u, hu, rfl⟩
  inOrder := by
    have hpairwise := pairwise_distinct f.pairwise_completed
    simp only [map_completed, mem_completed] at hpairwise
    exact hpairwise

theorem Declares.nodup {declared : List UserFunction} (h : f.Declares declared) : declared.Nodup :=
  h.apart.imp fun hkey heq => hkey (congrArg UserFunction.key heq)

theorem Declares.mem_iff {declared : List UserFunction} (h : f.Declares declared) :
    u ∈ declared ↔ ∃ p, f.UsesAt p u := by
  rw [← h.called u]
  constructor
  · exact fun hu => ⟨u, hu, rfl⟩
  · rintro ⟨v, hv, hkey⟩
    rwa [← UserFunction.key_injective hkey]

/-- There is one list of declarations that a formula needs. -/
theorem declares_iff {declared : List UserFunction} :
    f.Declares declared ↔ declared = f.userFunctions := by
  constructor
  · intro h
    have hright := f.declares_userFunctions
    have hperm : declared.Perm f.userFunctions :=
      (List.perm_ext_iff_of_nodup h.nodup hright.nodup).mpr fun u =>
        h.mem_iff.trans hright.mem_iff.symm
    -- of two functions one only can have its first call before the other
    apply hperm.eq_of_pairwise ?_ h.inOrder hright.inOrder
    rintro u v - - ⟨p, hp, hbefore⟩ ⟨q, hq, hbefore'⟩
    exact absurd (hbefore' p hp) (hbefore q hq).asymm
  · rintro rfl
    exact f.declares_userFunctions

/-- Of two functions that are declared, one is declared before the other. -/
theorem sublist_or {declared : List UserFunction} (hu : u ∈ declared) (hv : v ∈ declared)
    (hne : u ≠ v) : [u, v].Sublist declared ∨ [v, u].Sublist declared := by
  have hpairwise : declared.Pairwise fun a b => [a, b].Sublist declared ∨ [b, a].Sublist declared :=
    List.pairwise_iff_forall_sublist.mpr .inl
  exact @List.Pairwise.forall _ _ _ ⟨fun _ _ => Or.symm⟩ hpairwise u hu v hv hne

/-- A function that is called in an argument is declared before the function that it is passed to,
unless that one has been called before. -/
theorem declared_before {i : ℕ} (hu : f.UsesAt (q ++ i :: r) u) (hv : f.UsesAt q v)
    (hkey : u.key ≠ v.key) :
    [u, v].Sublist f.userFunctions ∨ ∃ p, f.UsesAt p v ∧ Before p (q ++ i :: r) := by
  have hdeclares := f.declares_userFunctions
  have hne : u ≠ v := fun heq => hkey (congrArg UserFunction.key heq)
  rcases sublist_or (mem_userFunctions.mpr ⟨_, hu⟩) (mem_userFunctions.mpr ⟨_, hv⟩) hne with h | h
  · exact .inl h
  · -- some call of the outer function is completed before all calls of the inner one, and so
    -- before this one
    obtain ⟨p, hp, hbefore⟩ := List.pairwise_iff_forall_sublist.mp hdeclares.inOrder h
    exact .inr ⟨p, hp, hbefore _ hu⟩

/-! ## The walk -/

/-- Adds a function behind the others unless it is known, by its key. -/
def note (seen : List UserFunction) (u : UserFunction) : List UserFunction :=
  if u.key ∈ seen.map UserFunction.key then seen else seen ++ [u]

mutual

/-- Walks over a formula from left to right and adds the function of a call after its arguments. -/
def collect : Formula ν → List UserFunction → List UserFunction
  | vector _, seen | scalar _ _, seen => seen
  | unary _ e, seen => e.collect seen
  | binary _ l r, seen => r.collect (l.collect seen)
  | call (.builtin _) args, seen => collectArgs args seen
  | call (.user u) args, seen => note (collectArgs args seen) u

/-- Walks over arguments. -/
def collectArgs : List (Formula ν) → List UserFunction → List UserFunction
  | [], seen => seen
  | e :: rest, seen => collectArgs rest (e.collect seen)

end

mutual

/-- The walk adds one call after the other. -/
theorem collect_eq : (f : Formula ν) → (seen : List UserFunction) →
    f.collect seen = f.userCalls.foldl note seen
  | vector _, _ | scalar _ _, _ => rfl
  | unary _ e, seen => collect_eq e seen
  | binary _ l r, seen => by rw [collect, userCalls, List.foldl_append, collect_eq l, collect_eq r]
  | call g args, seen => by
    cases g <;> simp [collect, userCalls, Function.user?, collectArgs_eq args]

theorem collectArgs_eq : (args : List (Formula ν)) → (seen : List UserFunction) →
    collectArgs args seen = (userCallsOfArgs args).foldl note seen
  | [], _ => rfl
  | e :: rest, seen => by
    rw [collectArgs, userCallsOfArgs, List.foldl_append, collect_eq e, collectArgs_eq rest]

end

/-- Adding calls one after the other adds the first call of each function that is not known. -/
theorem foldl_note (us seen : List UserFunction) :
    us.foldl note seen = seen ++ (distinct us).filter fun u =>
      u.key ∉ seen.map UserFunction.key := by
  induction us generalizing seen with
  | nil => simp [distinct]
  | cons u rest ih =>
    rw [List.foldl_cons, ih, note, distinct]
    by_cases hu : u.key ∈ seen.map UserFunction.key
    · -- a known key is left out anyway
      rw [if_pos hu, List.filter_cons_of_neg (by simpa using hu), List.filter_filter]
      congr 1
      apply List.filter_congr
      intro v hv
      by_cases hkey : v.key = u.key
      · simp [hkey, hu]
      · simp [hkey]
    · -- what is behind it is left out for its key, or for a key known before
      rw [if_neg hu, List.filter_cons_of_pos (by simpa using hu), List.filter_filter,
        List.append_assoc, List.singleton_append]
      congr 2
      apply List.filter_congr
      intro v hv
      simp

/-- The walk collects the declarations. -/
theorem collect_nil (f : Formula ν) : f.collect [] = f.userFunctions := by
  rw [collect_eq, foldl_note, userFunctions]
  simp

end Formula

/-! ## The text -/

namespace KernelSource

open Formula

variable {ν : Type}

/-- Declarations stand one after the other, each with an empty line behind it. -/
theorem intercalate_declarations (declarations : List String) {rest : List String}
    (hrest : rest ≠ []) : "\n".intercalate (declarations.flatMap (fun d => [d, ""]) ++ rest) =
      String.join (declarations.map (· ++ "\n\n")) ++ "\n".intercalate rest := by
  induction declarations with
  | nil => simp
  | cons d declarations ih =>
    obtain ⟨line, lines, hlines⟩ := List.exists_cons_of_ne_nil
      (List.append_ne_nil_of_right_ne_nil (declarations.flatMap fun d => [d, ""]) hrest)
    have hbreak : "\n" ++ ("" ++ "\n") = "\n\n" := rfl
    rw [List.flatMap_cons, List.append_assoc, List.cons_append, List.cons_append, List.nil_append,
      hlines, String.intercalate_cons_cons, String.intercalate_cons_cons, ← hlines,
      ih, List.map_cons, String.join_cons, ← hbreak]
    simp only [String.append_assoc]

theorem lines_eq (declarations : List String) (name : String) (signature : List String)
    (term : String) : lines declarations name signature term =
      declarations.flatMap (fun d => [d, ""]) ++ lines [] name signature term := by
  simp [lines]

/-- The text of a kernel is its declarations and what it would be without them. -/
theorem text_of_generate {typeOf : ν → DataType} {e : Expr ν} {f : Formula ν}
    (he : e.formula = .ok f) {result : DataType} {source : KernelSource}
    (hsource : generate typeOf e result = .ok source) :
    ∃ t signature, f.lower = .ok t ∧ source.text =
      String.join (f.userFunctions.map (·.declaration ++ "\n\n")) ++
        ("\n".intercalate (lines [] source.name signature t.render) ++ "\n") := by
  have hsource : ofFormula (f.map typeOf) result = .ok source := by rwa [generate, he] at hsource
  obtain ⟨t, signature, ht, -, htext⟩ := text_of_ofFormula hsource
  refine ⟨t, signature, by rw [← ht, lower, lower, lowerFrom_map], ?_⟩
  have hrest : lines [] source.name signature t.render ≠ [] := by simp [lines]
  rw [htext, userFunctions, userFunctions, userCalls_map, lines_eq,
    intercalate_declarations _ hrest, List.map_map, String.append_assoc]
  rfl

/-- User functions are declared once, and all of them. An expression without products is a formula.
In front of its kernel stand functions with different keys, those that are called somewhere in the
tree and no others, in the order in which their first calls are completed; no other list is like
that, and it is what a walk over the tree collects. A function that is called in an argument is
declared before the function that it is passed to, unless that one has been called before. -/
theorem declares_once {e : Expr ν} (he : ¬ e.Contains Expr.IsProduct) :
    ∃ f : Formula ν, e.formula = .ok f ∧ f.toExpr = e ∧
      (∀ declared, f.Declares declared ↔ declared = f.userFunctions) ∧
      f.collect [] = f.userFunctions ∧
      (∀ (q r : List ℕ) (i : ℕ) (u v : UserFunction), f.UsesAt (q ++ i :: r) u → f.UsesAt q v →
        u.key ≠ v.key →
        [u, v].Sublist f.userFunctions ∨ ∃ p, f.UsesAt p v ∧ Before p (q ++ i :: r)) ∧
      ∀ (typeOf : ν → DataType) (result : DataType) (source : KernelSource),
        generate typeOf e result = .ok source → ∃ t signature, f.lower = .ok t ∧ source.text =
          String.join (f.userFunctions.map (·.declaration ++ "\n\n")) ++
            ("\n".intercalate (lines [] source.name signature t.render) ++ "\n") := by
  obtain ⟨f, hf⟩ :=
    Option.isSome_iff_exists.mp (e.isSome_formula?_iff.mpr (e.products_eq_nil_iff.mpr he))
  have hformula : e.formula = .ok f := by rw [Expr.formula, hf]
  exact ⟨f, hformula, e.toExpr_of_formula? hf, fun _ => declares_iff, f.collect_nil,
    fun _ _ _ _ _ => declared_before, fun _ _ _ => text_of_generate hformula⟩

/-- A function is passed to another one, and that one to the first one again: the first one is
declared before the other, and neither of them twice. -/
theorem declares_once_nested :
    let scale : UserFunction := ⟨"scale", .float64, [("x", .float64)], "return 2 * x;"⟩
    let shift : UserFunction := ⟨"shift", .float64, [("x", .float64)], "return x + 1;"⟩
    let inner : Formula DataType := .call (.user scale) [.vector (.element .float64)]
    let f : Formula DataType := .binary "add" (.call (.user scale) [.call (.user shift) [inner]])
      (.call (.user shift) [.vector (.element .float64)])
    ¬ f.toExpr.Contains Expr.IsProduct ∧ f.Declares [scale, shift] ∧
    ∃ source rest, generate id f.toExpr (.element .float64) = .ok source ∧
      source.text = scale.declaration ++ "\n\n" ++ (shift.declaration ++ "\n\n") ++ rest := by
  intro scale shift inner f
  have hproduct : ¬ f.toExpr.Contains Expr.IsProduct := (f.toExpr.products_eq_nil_iff).mp rfl
  have hfunctions : f.userFunctions = [scale, shift] := by decide +kernel
  obtain ⟨f', hf', -, hdeclares, -, -, htext⟩ := declares_once hproduct
  have hformula : f.toExpr.formula = .ok f := rfl
  obtain rfl : f = f' := Except.ok.inj (hformula.symm.trans hf')
  obtain ⟨source, hsource⟩ := exists_ofFormula (f := f) (by decide) .float64
  have hgenerate : generate id f.toExpr (.element .float64) = .ok source :=
    generate_eq_ok (f := f) rfl hsource
  obtain ⟨t, signature, -, hsignature⟩ := htext id (.element .float64) source hgenerate
  have hjoin : String.join ([scale, shift].map (·.declaration ++ "\n\n")) =
      scale.declaration ++ "\n\n" ++ (shift.declaration ++ "\n\n") := by
    simp only [List.map_cons, List.map_nil, String.join_cons, String.join_nil, String.append_empty]
  rw [hfunctions, hjoin] at hsignature
  exact ⟨hproduct, (hdeclares _).mpr hfunctions.symm, source, _, hgenerate, hsignature⟩

end KernelSource

end DistributedVector
