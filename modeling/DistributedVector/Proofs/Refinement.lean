import DistributedVector.Proofs.Clarity
import DistributedVector.Proofs.Reachable
import DistributedVector.Proofs.ReferenceMachine

/-!
# Partitioned vectors refine plain arrays

Whatever devices the vectors lie on, and whichever boundaries the strategies of the sessions answer,
an operation that succeeds returns what it returns on plain arrays and leaves the vectors with the
elements that it leaves the plain arrays with. All that is assumed is the contract of the devices.

## Main definitions

* `Fleet.unrestricted` — devices that may be used in any list
* `Sample.machine`, `Sample.hardware` — two devices of one context

## Main results

* `Reachable.refines_plain` — every operation, from every store that comes up
-/

namespace DistributedVector

/-- Devices that may be used in any list, with any workgroup. -/
def Fleet.unrestricted (hardware : Hardware) : Fleet where
  hardware
  inUse _ := True
  suits _ _ _ := True
  chosen _ _ _ _ _ _ _ _ _ _ _ _ := trivial

section

variable {σ V : Type} {A : Arithmetic V} {h : Handler σ} {view : σ → Memory} {hardware : Hardware}
  {S S' : Store} {x x' : σ} {op : Operation} {a : Answer}

/-- An operation that succeeds returns what it returns on plain arrays, and the vectors are
afterwards the plain arrays that it leaves. Formulas are evaluated by the text of their kernels,
which is to evaluate the formula that has been written, if the text is clear about the functions
that it calls. -/
theorem Reachable.refines_plain (meets : h.Meets view (deviceContract A fun _ _ _ => True))
    (hreach : Reachable h view (.unrestricted hardware) S x) (hfits : op.Fits (S.plain (view x)))
    (hfree : op.Free) (hrun : (op.run.runFrom S).run h x = ((.ok a, S'), x')) :
    ∃ q, (S.plain (view x)).step A.byKernel op = some (a, q) ∧ S'.Represents (view x') q ∧
      (op.Clear (S.plain (view x)) → (S.plain (view x)).step A.byTree op = some (a, q)) := by
  have huses : op.Uses (.unrestricted hardware) := by
    cases op <;> exact trivial
  have hall := Operation.run_ensures (A := A) (hreach.valid meets) (.self _ _) hfits huses
  obtain ⟨q, hq, hrep⟩ := (hall.of_run_ok meets hrun).2 hfree
  exact ⟨q, hq, hrep, fun hclear => Plain.step_byTree hclear hq⟩

end

namespace Sample

/-- Two devices of one context, the second of which runs smaller workgroups. -/
def hardware : Hardware := fun d =>
  ⟨"sample", .number 0, .processor, if d = 0 then 1024 else 256, fun _ => 1024, 1⟩

/-- Two devices that carry out every command. -/
def machine : Machine.Executing :=
  ⟨.initial #[⟨[], none, true, 0⟩, ⟨[], none, true, 0⟩], fun i d hd => by
    match i, hd with
    | 0, hd =>
      cases hd
      rfl
    | 1, hd =>
      cases hd
      rfl⟩

/-- A store without vectors, whose session splits them equally. -/
def store : Store := ⟨#[], #[.create {} hardware (some .equally)]⟩

/-- A run on a store and the machine. -/
def run {α : Type} (t : Task Store α) (s : Store × Machine.Executing) :
    (Except Fault α × Store) × Machine.Executing :=
  (t.runFrom s.1).run Machine.Executing.handle s.2

/-- A run that returns, from what it returns. -/
theorem eq_of_result {ε α σ τ : Type} {r : (Except ε α × σ) × τ} {a : α}
    (h : r.1.1.toOption = some a) : r = ((.ok a, r.1.2), r.2) := by
  refine Prod.ext (Prod.ext ?_ rfl) rfl
  cases hr : r.1.1 with
  | error e =>
    rw [hr] at h
    cases h
  | ok b =>
    rw [hr] at h
    cases h
    rfl

theorem run_of_result {α : Type} {t : Task Store α} {s : Store × Machine.Executing} {a : α}
    (h : (run t s).1.1.toOption = some a) : run t s = ((.ok a, (run t s).1.2), (run t s).2) :=
  eq_of_result h

/-- A run of an operation that returns nothing, from its success. -/
theorem run_of_done (op : Operation) (s : Store × Machine.Executing)
    (h : (run op.run s).1.1.toOption.any (· matches .done)) :
    run op.run s = ((.ok .done, (run op.run s).1.2), (run op.run s).2) := by
  obtain ⟨a, ha, hdone⟩ := Option.any_eq_true _ _ |>.mp h
  cases a with
  | done => exact run_of_result ha
  | _ => cases hdone

/-- The store and the machine after an operation. -/
def after (op : Operation) (s : Store × Machine.Executing) : Store × Machine.Executing :=
  ((run op.run s).1.2, (run op.run s).2)

/-- A vector of three integers on both devices, one of them on the first. -/
def three : Operation :=
  .construct ⟨[0, 1], .count 3, none, .exact .int32, .readWrite, 0, some [0, 1, 3]⟩

/-- Two vectors, one of which holds a seven on the second device. -/
def vectors : Store × Machine.Executing :=
  after three (after (.set 0 (.int 1) (.int 7)) (after three (store, machine)))

theorem reachable_store {F : Fleet} (hF : F.hardware = hardware) :
    Reachable Machine.Executing.handle Machine.Executing.memory F store machine := by
  rw [store, ← hF]
  exact .session {} (some .equally) (.start machine) rfl (by simp)

theorem reachable_after {F : Fleet} {op : Operation} {s : Store × Machine.Executing}
    (h : Reachable Machine.Executing.handle Machine.Executing.memory F s.1 s.2)
    (hfits : op.Fits (s.1.plain s.2.memory)) (huses : op.Uses F) :
    Reachable Machine.Executing.handle Machine.Executing.memory F (after op s).1 (after op s).2 :=
  .operation h hfits huses rfl

theorem reachable_vectors :
    Reachable Machine.Executing.handle Machine.Executing.memory (.unrestricted hardware) vectors.1
      vectors.2 :=
  reachable_after (reachable_after (reachable_after (reachable_store rfl) (Plain.offers_count _ _)
    trivial) trivial trivial) (Plain.offers_count _ _) trivial

end Sample

namespace Sample

/-- A user function. -/
def scale : UserFunction := ⟨"scale", .float64, [("x", .float64)], "return 2 * x;"⟩

/-- A call of it, alone in a kernel, is clear. -/
theorem clear_scale {type : ElementType} {look : VectorId → Option (ElementType × List Scalar)} :
    (Formula.call (.user scale) [.vector 0]).ClearOver type look := by
  have hcalls : (Formula.call (.user scale) [.vector (0 : VectorId)]).userCalls = [scale] := rfl
  constructor
  · rw [hcalls]
    decide +kernel
  · rw [hcalls]
    decide +kernel
  have hname : '_' ∉ scale.name.toList ∧ scale.name ≠ "idx" ∧ scale.name ≠ "n" ∧
      scale.name ≠ "res" := by
    decide
  constructor
  · rintro u hu g hg -
    rw [hcalls, List.mem_singleton] at hu
    rw [hu]
    exact List.mem_singleton.mp hg
  · rintro u hu
    rw [hcalls, List.mem_singleton] at hu
    rw [hu]
    exact Formula.not_mem_reserved (Formula.underscore_mem_kernelName _ _) hname.1 hname.2

end Sample

/-- One vector is assigned a user function of the other. -/
theorem Reachable.refines_plain_sample :
    let op : Operation := .assign 1 (.expr (.call (.user Sample.scale) [.vector 0]))
    ∃ S' x', (op.run.runFrom Sample.vectors.1).run Machine.Executing.handle Sample.vectors.2 =
      ((.ok .done, S'), x') ∧ ∃ q, (Sample.vectors.1.plain Sample.vectors.2.memory).step
        Arithmetic.wide.byTree op = some (.done, q) ∧ S'.Represents x'.memory q := by
  intro op
  have hrun := Sample.run_of_done op Sample.vectors (by decide +kernel)
  have hfree : Operand.Free (.expr (.call (.user Sample.scale) [.vector 0])) := fun e he => by
    cases he
    exact ⟨.call (.user Sample.scale) [.vector 0], rfl⟩
  have hfits : op.Fits (Sample.vectors.1.plain Sample.vectors.2.memory) := trivial
  obtain ⟨q, -, hrep, hstep⟩ := Reachable.refines_plain (Machine.Executing.meets _)
    Sample.reachable_vectors hfits hfree hrun
  refine ⟨_, _, hrun, q, hstep fun e f he hf => ?_, hrep⟩
  cases he
  cases hf
  exact fun t xs _ => Sample.clear_scale

end DistributedVector
