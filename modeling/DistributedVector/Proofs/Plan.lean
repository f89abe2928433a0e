import DistributedVector.Proofs.Later
import DistributedVector.Proofs.Products

/-!
# Plans of assignments

An assignment of an expression without products carries out its plan. Until the plan has been found,
whatever the devices reply, nothing is asked for but compiled kernels; launches are planned only
when the operands have been checked and the kernels are in the cache.

## Main definitions

* `Store.Ready` — what has been found when kernels are about to be launched

## Main results

* `Store.assign_eq_plan` — an assignment carries out its plan
* `Store.planAssignment_ensures` — a plan can be carried out
* `Store.planAssignment_planned` — launches are planned only when everything is ready
-/

namespace DistributedVector

namespace Store

open DistributedVector.Task DistributedVector.Vector

variable {V : Type} {A : Arithmetic V} {F : Fleet} {m : Memory} {p : Plain} {v : VectorId}

/-- An assignment without products carries out its plan. -/
theorem assign_eq_plan {source : Operand VectorId} (hfree : source.Free) :
    assign v source = planAssignment v source >>= Plan.carryOut v := by
  unfold assign
  split
  next w => exact copyFrom_eq_plan
  next =>
    rw [planAssignment, bind_assoc]
    cases he : source.toExpr with
    | error e => rfl
    | ok e =>
      have hpure : (orFault .expr (.ok e) : Task Store (Expr VectorId)) = pure e := rfl
      -- an expression without products is its own rest
      obtain ⟨f, hf⟩ := hfree e he
      simp only [hpure, pure_bind, Expr.split_of_formula? hf, applyProducts]
      split
      next h => cases h
      next w h =>
        cases h
        rw [copyFrom_eq_plan]
        exact bind_pure_unit
      next e' hne h =>
        cases h
        rw [evaluate_eq_plan]
        split
        next w => exact absurd rfl (hne w)
        next => exact bind_pure_unit

/-- The plan of an assignment without products can be carried out, and the vectors and the memory
have not changed. -/
theorem planAssignment_ensures {S : Store} (hS : S.Valid F m) (hp : Represents S m p)
    {source : Operand VectorId} (hfree : source.Free) :
    (planAssignment v source).Ensures (deviceContract A F.suits)
      (fun plan S' m' => Settled F S m S' m' ∧
        Feasible A F S m p v (p.assign A.byKernel v source) plan)
      (fun _ S' m' => Settled F S m S' m') S m := by
  rw [planAssignment, Task.ensures_bind, ensures_orFault]
  refine ⟨fun e he => ?_, fun _ _ => .refl hS⟩
  obtain ⟨f, hf⟩ := hfree e he
  have hassign : p.assign A.byKernel v source = p.assignFormula A.byKernel v f := by
    simp [Plain.assign, he, hf, Except.toOption]
  rw [hassign]
  split
  next w =>
    cases hf
    exact planCopy_ensures hS hp
  next hne =>
    refine (planEvaluation_ensures hS hp).imp_ok ?_
    rintro plan S' m' ⟨hsettled, f', hf', hfeasible⟩
    obtain rfl := Option.some_inj.mp (hf.symm.trans hf')
    refine ⟨hsettled, ?_⟩
    cases f with
    | vector w => exact absurd (Expr.formula?_eq_vector hf) (hne w)
    | _ => exact hfeasible

section Found

variable {S S' : Store} {v w : VectorId} {d : Descriptor} {e : Expr VectorId} {f : Formula VectorId}
  {session : Session} {kernels : List (Key × CompiledKernel)}

/-- The shape of the kernels that compute a formula into a target. -/
def shapeFor (S : Store) (d : Descriptor) (f : Formula VectorId) : KernelShape :=
  ((S.resolve d f).map fun a => .element a.type).kernelShape (some (.element d.type))

/-- What is known when the kernels of a formula are about to be launched: the target may be written,
the vectors of the formula are laid out like it, and for each of its devices the kernel that is
going to be launched is the one in the cache. No vector has changed. -/
structure Ready (S : Store) (d : Descriptor) (f : Formula VectorId) (session : Session)
    (kernels : List (Key × CompiledKernel)) (S' : Store) : Prop where
  later : S.Later S'
  vectors : S'.vectors = S.vectors
  current : S'.sessions[d.session]? = some session
  writable : d.access ≠ .readOnly
  leaves : ∀ w, .vector w ∈ f.terminals → ∃ a, S.vectors[w]? = some a ∧ a.layout = d.layout
  compiled : ∀ device ∈ d.devices, ∃ kernel,
    kernels.lookup (session.hardware device).context = some kernel ∧
    session.cache.find? (session.hardware device).context (S.shapeFor d f) = some kernel

/-- The plans that an expression can have, with the stores that are left. -/
inductive Planned (S : Store) (v : VectorId) (e : Expr VectorId) : Plan → Store → Prop
  | nothing (S' : Store) : Planned S v e .nothing S'
  | copy (pairs : List (Shard × Shard)) (S' : Store) : Planned S v e (.copy pairs) S'
  | launches {d : Descriptor} {f : Formula VectorId} {session : Session}
    {kernels : List (Key × CompiledKernel)} {S' : Store} (target : S.vectors[v]? = some d)
    (formula : e.formula = .ok f) (ready : S.Ready d f session kernels S') :
    Planned S v e (.launches session kernels (S.resolve d f)) S'

theorem planEvaluation_planned (v : VectorId) (e : Expr VectorId) :
    (planEvaluation v e).Ensures (.only Call.Compiles) (fun plan S' _ => S.Planned v e plan S')
      (fun _ _ _ => True) S () := by
  simp only [planEvaluation, Task.ensures_bind, vector_ensures, Task.ensures_ite,
    Task.ensures_throw, ensures_orFault, Task.ensures_get, session_ensures, onSession_ensures,
    Task.ensures_pure]
  refine ⟨fun d hv => ⟨fun _ => trivial, fun hwritable => ⟨fun f hf => ?_, fun _ _ => trivial⟩⟩,
    fun _ => trivial⟩
  refine vectorsOf_ensures.imp ?_ fun _ _ _ _ => trivial
  rintro ws S' _ ⟨rfl, -, hws⟩
  refine ⟨fun _ hlayouts => ⟨fun _ => .nothing _, fun _ => ⟨fun s hs => ?_, fun _ => trivial⟩⟩,
    fun _ _ => trivial⟩
  refine (Session.kernelsFor_kept d.devices).imp ?_ fun _ _ _ _ => trivial
  rintro kernels s' _ ⟨hlater, hkernels⟩
  refine ⟨fun current hcurrent => ?_, fun _ => trivial⟩
  -- the session that launches is the one that has got the kernels
  obtain rfl : s' = current := by
    have hlt := (Array.getElem?_eq_some_iff.mp hs).1
    exact Option.some_inj.mp ((Array.getElem?_setIfInBounds_self_of_lt hlt).symm.trans hcurrent)
  refine .launches hv hf ⟨later_putSession hs hlater, rfl, hcurrent, hwritable,
    fun w hw => layout_of_checkLayouts hws hlayouts hw, fun device hdevice => ?_⟩
  rw [hlater.hardware]
  exact hkernels device hdevice

theorem planCopy_planned (v w : VectorId) :
    (planCopy v w).Ensures (.only Call.Compiles) (fun plan S' _ => S.Planned v (.vector w) plan S')
      (fun _ _ _ => True) S () := by
  simp only [planCopy, Task.ensures_ite, Task.ensures_bind, vector_ensures, ensures_orFault,
    Task.ensures_pure]
  exact ⟨fun _ => .nothing _, fun _ => ⟨fun d _ => ⟨fun d' _ => ⟨fun _ _ =>
    ⟨fun _ => planEvaluation_planned v _, fun _ => .copy _ _⟩, fun _ _ => trivial⟩,
      fun _ => trivial⟩,
    fun _ => trivial⟩⟩

/-- Launches are planned only when everything is ready, and nothing but compiled kernels has been
asked for until then. -/
theorem planAssignment_planned (v : VectorId) (source : Operand VectorId) :
    (planAssignment v source).Ensures (.only Call.Compiles)
      (fun plan S' _ => ∃ e, source.toExpr = .ok e ∧ S.Planned v e plan S')
      (fun _ _ _ => True) S () := by
  rw [planAssignment, Task.ensures_bind, ensures_orFault]
  refine ⟨fun e he => ?_, fun _ _ => trivial⟩
  split
  next w => exact (planCopy_planned v w).imp_ok fun _ _ _ h => ⟨_, he, h⟩
  next => exact (planEvaluation_planned v e).imp_ok fun _ _ _ h => ⟨e, he, h⟩

end Found

end Store

end DistributedVector
