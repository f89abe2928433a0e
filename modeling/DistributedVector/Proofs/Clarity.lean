import DistributedVector.Proofs.Denotation
import DistributedVector.Proofs.Slices

/-!
# Operations that devices compute as written

Devices evaluate the text of a kernel, in which functions have names only. An operation that assigns
a formula whose kernel is clear about its functions does with the text what it does with the tree of
the formula, and so does every operation that assigns no formula with user functions.

## Main definitions

* `Plain.Clear`, `Operand.Clear`, `Operation.Clear` — what is assigned has a clear kernel

## Main results

* `Plain.assignUpTo_byTree`, `Plain.step_byTree` — operations with a clear kernel
-/

namespace DistributedVector

variable {V : Type} {A : Arithmetic V} {p q : Plain} {v w : VectorId} {f : Formula VectorId}

/-- The kernel of the formula into a vector is clear about the functions that it calls. -/
def Plain.Clear (p : Plain) (v : VectorId) (f : Formula VectorId) : Prop :=
  ∀ t xs, p.vectors[v]? = some (t, xs) → f.ClearOver t (p.vectors[·]?)

/-- What an operand stands for has a clear kernel, if it has no products. -/
def Operand.Clear (p : Plain) (v : VectorId) (source : Operand VectorId) : Prop :=
  ∀ e f, source.toExpr = .ok e → e.formula? = some f → p.Clear v f

/-- What an operation assigns has a clear kernel. -/
def Operation.Clear (p : Plain) : Operation → Prop
  | assign v source | setSlice v _ (.operand source) => source.Clear p v
  | update v op source => ∀ x, Operand.binary op (.vector v) source = .ok x → x.Clear p v
  | _ => True

namespace Plain

/-- Without user functions, a kernel is clear. -/
theorem clear_of_userCalls_eq_nil (p : Plain) (v : VectorId) (h : f.userCalls = []) : p.Clear v f :=
  fun _ _ _ => Formula.clear_of_userCalls_eq_nil h _

end Plain

/-- A vector has no functions in it. -/
theorem Operand.clear_vector (p : Plain) (v w : VectorId) : Operand.Clear p v (.vector w) :=
  fun e f he hf => by
    cases he
    cases hf
    exact p.clear_of_userCalls_eq_nil v rfl

namespace Plain

theorem evaluate_byTree (hclear : p.Clear v f) (h : p.evaluate A.byKernel v f = some q) :
    p.evaluate A.byTree v f = some q := by
  obtain ⟨⟨t, xs⟩, hv, h⟩ := Option.bind_eq_some_iff.mp h
  obtain ⟨zs, hzs, hq⟩ := Option.bind_eq_some_iff.mp h
  simp only [evaluate, hv, Option.bind_eq_bind, Option.bind_some,
    Arithmetic.results_byTree (hclear t xs hv) hzs]
  exact hq

/-- Taking the elements of a vector calls no function. -/
theorem take_byTree (h : p.take A.byKernel v w = some q) : p.take A.byTree v w = some q := by
  unfold take at h ⊢
  by_cases hvw : v = w
  · rwa [if_pos hvw] at h ⊢
  rw [if_neg hvw] at h ⊢
  obtain ⟨⟨t, xs⟩, hv, h⟩ := Option.bind_eq_some_iff.mp h
  obtain ⟨⟨t', ys⟩, hw, h⟩ := Option.bind_eq_some_iff.mp h
  simp only [hv, hw, Option.bind_eq_bind, Option.bind_some] at h ⊢
  by_cases htypes : t' = t
  · rwa [if_pos htypes] at h ⊢
  rw [if_neg htypes] at h ⊢
  obtain ⟨zs, hzs, hq⟩ := Option.bind_eq_some_iff.mp h
  have hclear : (Formula.vector w).ClearOver t (p.vectors[·]?) :=
    Formula.clear_of_userCalls_eq_nil rfl _
  rw [Arithmetic.results_byTree hclear hzs]
  exact hq

theorem assignFormula_byTree (hclear : p.Clear v f) (h : p.assignFormula A.byKernel v f = some q) :
    p.assignFormula A.byTree v f = some q := by
  unfold assignFormula at h ⊢
  split
  next w => exact take_byTree h
  next hne =>
    split at h
    next w => exact absurd rfl (hne w)
    next => exact evaluate_byTree hclear h

theorem assign_byTree {source : Operand VectorId} (hclear : source.Clear p v)
    (h : p.assign A.byKernel v source = some q) : p.assign A.byTree v source = some q := by
  obtain ⟨e, he, h⟩ := Option.bind_eq_some_iff.mp h
  obtain ⟨f, hf, h⟩ := Option.bind_eq_some_iff.mp h
  have hf' := hclear e f (toOption_eq_some_iff.mp he) hf
  simp only [assign, he, hf, Option.bind_eq_bind, Option.bind_some]
  exact assignFormula_byTree hf' h

theorem assignUpTo_byTree {e : Expr VectorId} {products : List (Sign × Product VectorId)}
    (hclear : ∀ rest f, e.split.1 = some rest → rest.formula? = some f → p.Clear v f)
    (h : p.assignUpTo A.byKernel v e products = some q) :
    p.assignUpTo A.byTree v e products = some q := by
  obtain ⟨p₁, hrest, hproducts⟩ := Option.bind_eq_some_iff.mp h
  have hrest' : p.assignRest A.byTree v e.split.1 = some p₁ := by
    cases hsplit : e.split.1 with
    | none => rwa [hsplit] at hrest
    | some rest =>
      rw [hsplit] at hrest
      obtain ⟨f, hf, hrest⟩ := Option.bind_eq_some_iff.mp hrest
      rw [assignRest, hf]
      exact assignFormula_byTree (hclear rest f hsplit hf) hrest
  rw [assignUpTo, hrest']
  exact hproducts

/-- Without user functions, an expression is assigned as its tree says. -/
theorem assignAll_byTree {e : Expr VectorId}
    (hcalls : ∀ rest f, e.split.1 = some rest → rest.formula? = some f → f.userCalls = [])
    (h : p.assignAll A.byKernel v e = some q) : p.assignAll A.byTree v e = some q :=
  assignUpTo_byTree
    (fun rest f hrest hf => p.clear_of_userCalls_eq_nil v (hcalls rest f hrest hf)) h

theorem copy_byTree {source target : Collection} (h : p.copy A.byKernel source target = some q) :
    p.copy A.byTree source target = some q := by
  cases source with
  | vector v =>
    cases target with
    | vector w => exact assign_byTree (Operand.clear_vector p w v) h
    | _ => exact h
  | _ => cases target <;> exact h

theorem setSlice_byTree {s : Slice} {x : Content} (hclear : (Operation.setSlice v s x).Clear p)
    (h : p.setSlice A.byKernel v s x = some q) : p.setSlice A.byTree v s x = some q := by
  obtain ⟨⟨t, xs⟩, hv, hslice⟩ := Option.bind_eq_some_iff.mp h
  obtain ⟨b, hb, -⟩ := Option.bind_eq_some_iff.mp hslice
  cases hx : Store.Content.isExpression x with
  | false =>
    rw [setSlice_of_content hv hb hx] at h ⊢
    exact h
  | true =>
    cases x with
    | data source => cases hx
    | operand e =>
      rw [setSlice_of_expression hv hb hx] at h ⊢
      split
      next hwhole =>
        rw [if_pos hwhole] at h
        exact assign_byTree hclear h
      next hpart =>
        rw [if_neg hpart] at h
        exact h

/-- An operation whose kernel is clear does what it does with the tree. -/
theorem step_byTree {op : Operation} {a : Answer} (hclear : op.Clear p)
    (h : p.step A.byKernel op = some (a, q)) : p.step A.byTree op = some (a, q) := by
  have hsilently : ∀ {x y : Option Plain}, (∀ q, x = some q → y = some q) →
      silently x = some (a, q) → silently y = some (a, q) := by
    intro x y hxy hx
    obtain ⟨q', hq', heq⟩ := Option.map_eq_some_iff.mp hx
    rw [hxy q' hq']
    exact congrArg some heq
  cases op with
  | setSlice v s x => exact hsilently (fun _ => setSlice_byTree hclear) h
  | copy source target blocking => exact hsilently (fun _ => copy_byTree) h
  | assign v source => exact hsilently (fun _ => assign_byTree hclear) h
  | update v op source =>
    refine hsilently (fun q hq => ?_) h
    obtain ⟨x, hx, hq⟩ := Option.bind_eq_some_iff.mp hq
    rw [hx]
    exact assign_byTree (hclear x (toOption_eq_some_iff.mp hx)) hq
  | resizeLike v w access => exact hsilently (fun _ => take_byTree) h
  | _ => exact h

end Plain

end DistributedVector
