import DistributedVector.Task

/-!
# What runs ensure

What is known of the surroundings of a program is a contract: which calls may be made in a state,
and what a call that may be made can reply and leave behind. A program is judged against a contract
in one pass. Every call has to be allowed where it is made, and whatever the replies are, the value
returned and the state at the end have to satisfy a postcondition. A task has two postconditions,
one for results and one for faults, both about the state that the task leaves behind.

The rules below take a judgement about a task apart along the task. They are equivalences, so that
rewriting with them leaves exactly the judgements about the parts that have a rule of their own.

## Main definitions

* `Contract`, `Handler.Meets` — what is known of a handler
* `Program.Ensures`, `Task.Ensures` — the judgement about all runs under a contract
* `Program.calls` — the calls that a run makes

## Main results

* `Program.ensures_bind`, `Task.ensures_bind` — a sequence ensures what its parts ensure
* `Program.Ensures.of_run` — what the judgement says about a run on a handler
* `Program.Ensures.of_mem_calls` — every call of a run is an allowed one
-/

namespace DistributedVector

/-- Which calls may be made in a state, and what they can reply and leave behind. -/
structure Contract (μ : Type) where
  allows : Call → μ → Prop
  effect : (c : Call) → μ → c.Reply → μ → Prop

/-- A handler answers every allowed call as its contract says, for the part of its state that `view`
shows. -/
def Handler.Meets {σ μ : Type} (h : Handler σ) (view : σ → μ) (K : Contract μ) : Prop :=
  ∀ c s, K.allows c (view s) → K.effect c (view s) (h c s).1 (view (h c s).2)

/-- The contract that every handler meets: nothing is known of the replies. -/
def Contract.any : Contract Unit where
  allows _ _ := True
  effect _ _ _ _ := True

theorem Handler.meets_any {σ : Type} (h : Handler σ) : h.Meets (fun _ => ()) .any :=
  fun _ _ _ => trivial

/-- The contract for calls of one kind, of whose replies nothing is known. -/
def Contract.only (kind : Call → Prop) : Contract Unit where
  allows c _ := kind c
  effect _ _ _ _ := True

theorem Handler.meets_only {σ : Type} (h : Handler σ) (kind : Call → Prop) :
    h.Meets (fun _ => ()) (.only kind) :=
  fun _ _ _ => trivial

namespace Program

variable {α β σ μ : Type} {K : Contract μ} {good good' : α → μ → Prop} {m : μ}

/-- Every call that a program makes is allowed, and its value and the state after it are good. -/
def Ensures (K : Contract μ) : Program α → (α → μ → Prop) → μ → Prop
  | .pure a, good, m => good a m
  | .call c next, good, m =>
    K.allows c m ∧ ∀ r m', K.effect c m r m' → (next r).Ensures K good m'

/-- The calls that a run makes, in order. -/
def calls (h : Handler σ) : Program α → σ → List Call
  | .pure _, _ => []
  | .call c next, s => c :: (next (h c s).1).calls h (h c s).2

@[simp] theorem calls_pure {h : Handler σ} {a : α} {s : σ} :
    (Pure.pure a : Program α).calls h s = [] := rfl

@[simp] theorem calls_ask {h : Handler σ} {c : Call} {s : σ} : (ask c).calls h s = [c] := rfl

/-- The calls of a sequence are those of its parts, one after the other. -/
@[simp] theorem calls_bind {h : Handler σ} {p : Program α} {f : α → Program β} {s : σ} :
    (p >>= f).calls h s = p.calls h s ++ (f (p.run h s).1).calls h (p.run h s).2 := by
  induction p generalizing s with
  | pure a => rfl
  | call c next ih => exact congrArg (c :: ·) (ih _)

@[simp] theorem ensures_pure {a : α} :
    (Pure.pure a : Program α).Ensures K good m ↔ good a m := Iff.rfl

@[simp] theorem ensures_ask {c : Call} {good : c.Reply → μ → Prop} :
    (ask c).Ensures K good m ↔ K.allows c m ∧ ∀ r m', K.effect c m r m' → good r m' := Iff.rfl

/-- A sequence ensures what its parts ensure, one after the other. -/
@[simp] theorem ensures_bind {p : Program α} {f : α → Program β} {good : β → μ → Prop} :
    (p >>= f).Ensures K good m ↔ p.Ensures K (fun a m => (f a).Ensures K good m) m := by
  induction p generalizing m with
  | pure a => exact Iff.rfl
  | call c next ih =>
    exact and_congr_right fun _ => forall_congr' fun r => forall_congr' fun m' =>
      imp_congr_right fun _ => ih r

/-- A judgement holds of every weaker postcondition. -/
theorem Ensures.imp {p : Program α} (h : p.Ensures K good m)
    (weaker : ∀ a m, good a m → good' a m) : p.Ensures K good' m := by
  induction p generalizing m with
  | pure a => exact weaker a m h
  | call c next ih => exact ⟨h.1, fun r m' he => ih r (h.2 r m' he)⟩

/-- Two judgements hold together. -/
theorem Ensures.and {p : Program α} (h : p.Ensures K good m) (h' : p.Ensures K good' m) :
    p.Ensures K (fun a m => good a m ∧ good' a m) m := by
  induction p generalizing m with
  | pure a => exact ⟨h, h'⟩
  | call c next ih => exact ⟨h.1, fun r m' he => ih r (h.2 r m' he) (h'.2 r m' he)⟩

/-- What is ensured by a part of what is known holds beside what all of it ensures. -/
theorem Ensures.along {ν : Type} {L : Contract ν} {part : μ → ν}
    (hpart : ∀ c m r m', K.effect c m r m' → L.effect c (part m) r (part m')) {p : Program α}
    {good' : α → ν → Prop} (h : p.Ensures K good m) (h' : p.Ensures L good' (part m)) :
    p.Ensures K (fun a m => good a m ∧ good' a (part m)) m := by
  induction p generalizing m with
  | pure a => exact ⟨h, h'⟩
  | call c next ih => exact ⟨h.1, fun r m' he => ih r (h.2 r m' he) (h'.2 r _ (hpart c m r m' he))⟩

/-- What holds of calls of one kind holds whichever calls are made. -/
theorem Ensures.any {kind : Call → Prop} {p : Program α} {good : α → Unit → Prop}
    (h : p.Ensures (.only kind) good ()) : p.Ensures .any good () := by
  induction p with
  | pure a => exact h
  | call c next ih => exact ⟨trivial, fun r _ _ => ih r (h.2 r () trivial)⟩

variable {h : Handler σ} {view : σ → μ} {s : σ}

/-- The value and the state at the end of a run are good. -/
theorem Ensures.of_run (meets : h.Meets view K) {p : Program α}
    (hp : p.Ensures K good (view s)) : good (p.run h s).1 (view (p.run h s).2) := by
  induction p generalizing s with
  | pure a => exact hp
  | call c next ih => exact ih _ (hp.2 _ _ (meets c s hp.1))

/-- Every call that a run makes is allowed in the state in which it is made. -/
theorem Ensures.of_mem_calls (meets : h.Meets view K) {p : Program α}
    (hp : p.Ensures K good (view s)) {c : Call} (hc : c ∈ p.calls h s) :
    ∃ s', K.allows c (view s') := by
  induction p generalizing s with
  | pure a => simp [calls] at hc
  | call d next ih =>
    rcases List.mem_cons.mp hc with rfl | hc
    · exact ⟨s, hp.1⟩
    · exact ih _ (hp.2 _ _ (meets d s hp.1)) hc

end Program

namespace Task

variable {α β σ μ τ υ : Type} {K : Contract μ} {good good' : α → τ → μ → Prop}
  {bad bad' : Fault → τ → μ → Prop} {s : τ} {m : μ}

/-- The postcondition of a task as one about outcomes. -/
def outcome (good : α → τ → μ → Prop) (bad : Fault → τ → μ → Prop) :
    Except Fault α × τ → μ → Prop
  | (.ok a, s), m => good a s m
  | (.error e, s), m => bad e s m

@[simp] theorem outcome_ok {a : α} : outcome good bad (.ok a, s) m ↔ good a s m := Iff.rfl

@[simp] theorem outcome_error {e : Fault} :
    outcome good bad (.error e, s) m ↔ bad e s m := Iff.rfl

/-- Every call that a task makes is allowed, its result is good, and its fault is as expected. -/
def Ensures (K : Contract μ) (t : Task τ α) (good : α → τ → μ → Prop)
    (bad : Fault → τ → μ → Prop) (s : τ) (m : μ) : Prop :=
  (t.runFrom s).Ensures K (outcome good bad) m

@[simp] theorem ensures_pure {a : α} :
    (pure a : Task τ α).Ensures K good bad s m ↔ good a s m := Iff.rfl

@[simp] theorem ensures_throw {e : Fault} :
    (throw e : Task τ α).Ensures K good bad s m ↔ bad e s m := Iff.rfl

@[simp] theorem ensures_get {good : τ → τ → μ → Prop} :
    (get : Task τ τ).Ensures K good bad s m ↔ good s s m := Iff.rfl

@[simp] theorem ensures_modify {f : τ → τ} {good : PUnit → τ → μ → Prop} :
    (modify f : Task τ PUnit).Ensures K good bad s m ↔ good ⟨⟩ (f s) m := Iff.rfl

/-- A sequence ensures what its parts ensure; a fault of the first part ends it. -/
@[simp] theorem ensures_bind {t : Task τ α} {f : α → Task τ β} {good : β → τ → μ → Prop} :
    (t >>= f).Ensures K good bad s m ↔
      t.Ensures K (fun a s m => (f a).Ensures K good bad s m) bad s m := by
  unfold Ensures
  rw [runFrom_bind, Program.ensures_bind]
  constructor <;> refine fun h => h.imp ?_ <;> rintro ⟨_ | _, s⟩ m h <;> exact h

@[simp] theorem ensures_ite {p : Prop} [Decidable p] {t u : Task τ α} :
    (if p then t else u).Ensures K good bad s m ↔
      (p → t.Ensures K good bad s m) ∧ (¬ p → u.Ensures K good bad s m) := by
  split <;> simp [*]

@[simp] theorem ensures_perform {p : Program α} :
    (perform p : Task τ α).Ensures K good bad s m ↔ p.Ensures K (fun a m => good a s m) m := by
  unfold Ensures
  rw [runFrom_perform, Program.ensures_bind]
  exact Iff.rfl

@[simp] theorem ensures_ofExcept {r : Except Fault α} :
    (ofExcept r : Task τ α).Ensures K good bad s m ↔
      (∀ a, r = .ok a → good a s m) ∧ ∀ e, r = .error e → bad e s m := by
  cases r with
  | error e => simp [Ensures]
  | ok a => simp [Ensures]

@[simp] theorem ensures_zoom {view : υ → τ} {update : τ → υ → υ} {t : Task τ α} {s : υ}
    {good : α → υ → μ → Prop} {bad : Fault → υ → μ → Prop} :
    (t.zoom view update).Ensures K good bad s m ↔
      t.Ensures K (fun a part m => good a (update part s) m)
        (fun e part m => bad e (update part s) m) (view s) m := by
  unfold Ensures
  rw [runFrom_zoom, Program.ensures_bind]
  constructor <;> refine fun h => h.imp ?_ <;> rintro ⟨_ | _, s⟩ m h <;> exact h

@[simp] theorem ensures_runOn {part : υ} {t : Task υ α} {good : α × υ → τ → μ → Prop} :
    (t.runOn part : Task τ (α × υ)).Ensures K good bad s m ↔
      t.Ensures K (fun a part m => good (a, part) s m) (fun e _ m => bad e s m) part m := by
  unfold Ensures runOn
  rw [runFrom_mk, Program.ensures_bind]
  constructor <;> refine fun h => h.imp ?_ <;> rintro ⟨_ | _, s⟩ m h <;> exact h

/-- A judgement holds of every weaker pair of postconditions. -/
theorem Ensures.imp {t : Task τ α} (h : t.Ensures K good bad s m)
    (weaker : ∀ a s m, good a s m → good' a s m) (weaker' : ∀ e s m, bad e s m → bad' e s m) :
    t.Ensures K good' bad' s m := by
  apply Program.Ensures.imp h
  rintro ⟨_ | _, s⟩ m h
  · exact weaker' _ _ _ h
  · exact weaker _ _ _ h

/-- Less is asked of what a task returns. -/
theorem Ensures.imp_ok {t : Task τ α} (h : t.Ensures K good bad s m)
    (weaker : ∀ a s m, good a s m → good' a s m) : t.Ensures K good' bad s m :=
  h.imp weaker fun _ _ _ h => h

/-- Two judgements hold together. -/
theorem Ensures.and {t : Task τ α} (h : t.Ensures K good bad s m)
    (h' : t.Ensures K good' bad' s m) :
    t.Ensures K (fun a s m => good a s m ∧ good' a s m)
      (fun e s m => bad e s m ∧ bad' e s m) s m := by
  apply (Program.Ensures.and h h').imp
  rintro ⟨_ | _, s⟩ m hpost <;> exact hpost

theorem Ensures.along {ν : Type} {L : Contract ν} {part : μ → ν}
    (hpart : ∀ c m r m', K.effect c m r m' → L.effect c (part m) r (part m')) {t : Task τ α}
    {good' : α → τ → ν → Prop} {bad' : Fault → τ → ν → Prop} (h : t.Ensures K good bad s m)
    (h' : t.Ensures L good' bad' s (part m)) :
    t.Ensures K (fun a s m => good a s m ∧ good' a s (part m))
      (fun e s m => bad e s m ∧ bad' e s (part m)) s m := by
  apply (Program.Ensures.along hpart h h').imp
  rintro ⟨_ | _, s⟩ m hpost <;> exact hpost

/-- What holds of calls of one kind holds whichever calls are made. -/
theorem Ensures.any {kind : Call → Prop} {t : Task τ α} {good : α → τ → Unit → Prop}
    {bad : Fault → τ → Unit → Prop} (h : t.Ensures (.only kind) good bad s ()) :
    t.Ensures .any good bad s () :=
  Program.Ensures.any h

variable {h : Handler σ} {view : σ → μ} {x x' : σ}

/-- Behind a part that returns, a sequence runs as the rest of it. -/
theorem run_bind_of_ok {t : Task τ α} {f : α → Task τ β} {s' : τ} {a : α}
    (ht : (t.runFrom s).run h x = ((.ok a, s'), x')) :
    ((t >>= f).runFrom s).run h x = ((f a).runFrom s').run h x' := by
  rw [runFrom_bind, Program.run_bind, ht]

/-- A result of a run is good. -/
theorem Ensures.of_run_ok (meets : h.Meets view K) {t : Task τ α}
    (ht : t.Ensures K good bad s (view x)) {a : α} {s' : τ}
    (hr : (t.runFrom s).run h x = ((.ok a, s'), x')) : good a s' (view x') := by
  have ht := Program.Ensures.of_run meets ht
  rwa [hr] at ht

/-- A fault of a run is as expected. -/
theorem Ensures.of_run_error (meets : h.Meets view K) {t : Task τ α}
    (ht : t.Ensures K good bad s (view x)) {e : Fault} {s' : τ}
    (hr : (t.runFrom s).run h x = ((.error e, s'), x')) : bad e s' (view x') := by
  have ht := Program.Ensures.of_run meets ht
  rwa [hr] at ht

end Task

section

variable {α ε μ τ : Type} {K : Contract μ} {good : α → τ → μ → Prop}
  {bad : Fault → τ → μ → Prop} {s : τ} {m : μ}

@[simp] theorem ensures_orFault {f : ε → Fault} {r : Except ε α} :
    (orFault f r : Task τ α).Ensures K good bad s m ↔
      (∀ a, r = .ok a → good a s m) ∧ ∀ e, r = .error e → bad (f e) s m := by
  cases r with
  | error e =>
    have hthrow : (orFault f (.error e) : Task τ α) = throw (f e) := rfl
    simp [hthrow]
  | ok a =>
    have hpure : (orFault f (.ok a) : Task τ α) = pure a := rfl
    simp [hpure]

/-- The rule of a device command: what holds after its reply, whichever it is. -/
theorem ensures_issue {p : Program (Except DeviceFault α)} :
    (issue p : Task τ α).Ensures K good bad s m ↔
      p.Ensures K (fun r m => (∀ a, r = .ok a → good a s m) ∧
        ∀ e, r = .error e → bad (.device e) s m) m := by
  unfold Task.Ensures issue
  rw [Task.runFrom_mk, Program.ensures_bind]
  constructor <;> refine fun h => h.imp ?_
  · rintro (e | a) m h
    · exact ⟨nofun, fun _ he => by cases he; exact h⟩
    · exact ⟨fun _ ha => by cases ha; exact h, nofun⟩
  · rintro (e | a) m h
    · exact h.2 e rfl
    · exact h.1 a rfl

end

end DistributedVector
