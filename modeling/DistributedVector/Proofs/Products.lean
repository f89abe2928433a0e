import DistributedVector.Proofs.Assignment

/-!
# Assignment with products

An expression is split into a rest, which is assigned first, and signed products of operators with
vectors, which are applied to the target one after the other. The first product replaces the
elements if there is no rest, all others are added. Each one reads its vector when its turn comes.

## Main definitions

* `Plain.applyProduct`, `Plain.assignAll` — products and whole expressions on plain arrays
* `Store.Misfit` — a product whose operator does not fit
* `Expr.late` — the products that are applied when something has been written already

## Main results

* `Store.assign_ensures` — assignments of all expressions
-/

namespace DistributedVector

namespace Plain

/-- Multiplies a vector by an operator into a target, or adds the product to it. -/
def applyProduct (p : Plain) (v : VectorId) (q : Product VectorId) (sign : Sign) (append : Bool) :
    Option Plain := do
  let (_, ys) ← p.vectors[v]?
  let (_, xs) ← p.vectors[q.vector]?
  guard (q.operator.rows = ys.length ∧ q.operator.cols = xs.length)
  let product ← q.operator.apply sign.toFloat (xs.map Scalar.toFloat).toArray ys.length
  let sum := if append then Store.addEntries product (ys.map Scalar.toFloat).toArray else product
  p.write v 0 ys.length (.row .float64 (sum.map Scalar.float))

theorem guard_eq_some {c : Prop} [Decidable c] {a : Unit} :
    (guard c : Option Unit) = some a ↔ c := by
  unfold guard
  split <;> simp [*]

/-- A product is applied if the operator fits and has a product with the vector. -/
theorem applyProduct_eq_some {p q : Plain} {v : VectorId} {r : Product VectorId} {sign : Sign}
    {append : Bool} :
    p.applyProduct v r sign append = some q ↔ ∃ t ys t' xs product, p.vectors[v]? = some (t, ys) ∧
      p.vectors[r.vector]? = some (t', xs) ∧
      (r.operator.rows = ys.length ∧ r.operator.cols = xs.length) ∧
      r.operator.apply sign.toFloat (xs.map Scalar.toFloat).toArray ys.length = some product ∧
      p.write v 0 ys.length (.row .float64 ((if append then
        Store.addEntries product (ys.map Scalar.toFloat).toArray else product).map Scalar.float)) =
          some q := by
  simp only [applyProduct, Option.bind_eq_bind, Option.bind_eq_some_iff, guard_eq_some, Prod.exists]
  constructor
  · rintro ⟨t, ys, hv, t', xs, hw, -, hfits, product, hproduct, hq⟩
    exact ⟨t, ys, t', xs, product, hv, hw, hfits, hproduct, hq⟩
  · rintro ⟨t, ys, t', xs, product, hv, hw, hfits, hproduct, hq⟩
    exact ⟨t, ys, hv, t', xs, hw, (), hfits, product, hproduct, hq⟩

/-- Applies products one after the other; the first one replaces the elements unless `append`. -/
def applyProducts (p : Plain) (v : VectorId) (append : Bool) :
    List (Sign × Product VectorId) → Option Plain
  | [] => some p
  | (sign, q) :: rest => do (← p.applyProduct v q sign append).applyProducts v true rest

/-- Assigns the part of an expression that is no product, if there is one. -/
def assignRest (E : Evaluation) (p : Plain) (v : VectorId) :
    Option (Expr VectorId) → Option Plain
  | none => some p
  | some e => do p.assignFormula E v (← e.formula?)

/-- Assigns an expression up to some of its products: first the rest, then these products. -/
def assignUpTo (E : Evaluation) (p : Plain) (v : VectorId) (e : Expr VectorId)
    (products : List (Sign × Product VectorId)) : Option Plain := do
  (← p.assignRest E v e.split.1).applyProducts v e.split.1.isSome products

/-- Assigns an expression. -/
def assignAll (E : Evaluation) (p : Plain) (v : VectorId) (e : Expr VectorId) :
    Option Plain :=
  p.assignUpTo E v e e.split.2

end Plain

/-- The products of an expression that are applied when something else has been written to the
target: all of them behind a rest, and all but the first one otherwise. A target that is its own
rest is not written to. -/
def Expr.late (v : VectorId) (e : Expr VectorId) : List (Sign × Product VectorId) :=
  match e.split with
  | (none, products) => products.tail
  | (some (.vector w), products) => if w = v then products.tail else products
  | (some _, products) => products

/-- There are no products in what an operand stands for. -/
def Operand.Free (x : Operand VectorId) : Prop := ∀ e, x.toExpr = .ok e → ∃ f, e.formula? = some f

theorem Operand.free_vector (v : VectorId) : (Operand.vector v).Free := by
  rintro e ⟨⟩
  exact ⟨.vector v, rfl⟩

/-- A vector combined with an operand without products has no products in it. -/
theorem Operand.Free.binary {op : BinaryOp} {v : VectorId} {x y : Operand VectorId} (hx : x.Free)
    (hy : Operand.binary op (.vector v) x = .ok y) : y.Free := by
  have hlifted : Operand.binary.lifted op (.vector v) x = .ok y := hy
  unfold Operand.binary.lifted at hlifted
  split at hlifted
  next l r hl hr =>
    cases hl
    cases hlifted
    rintro e ⟨⟩
    obtain ⟨f, hf⟩ := hx r hr
    exact ⟨.binary op.tag (.vector v) f, by simp [Expr.formula?, hf]⟩
  · cases hlifted

/-- An expression without products is its own rest. -/
theorem Expr.split_of_formula? {e : Expr VectorId} {f : Formula VectorId}
    (h : e.formula? = some f) : e.split = (some e, []) := by
  cases e with
  | product a v => cases h
  | binary tag l r =>
    have hsides : l.product? = none ∧ r.product? = none := by
      constructor
      · cases l <;> first | rfl | (simp [formula?] at h)
      · cases r <;> first | rfl | (simp [formula?] at h)
    rw [split]
    cases additive? tag with
    | none => rfl
    | some sign => simp only [hsides]
  | _ => rfl

/-- Without products, nothing is applied behind the rest. -/
theorem Plain.assignAll_of_formula? {E : Evaluation} {p : Plain} {v : VectorId}
    {e : Expr VectorId} {f : Formula VectorId} (hf : e.formula? = some f) :
    p.assignAll E v e = p.assignFormula E v f := by
  simp only [assignAll, assignUpTo, Expr.split_of_formula? hf, assignRest, hf, applyProducts,
    Option.bind_eq_bind, Option.bind_some, Option.bind_fun_some]

theorem Expr.formula?_eq_vector {e : Expr VectorId} {w : VectorId}
    (h : e.formula? = some (.vector w)) : e = .vector w := by
  cases e with
  | vector v =>
    cases h
    rfl
  | unary tag e =>
    obtain ⟨f, -, hf⟩ := Option.map_eq_some_iff.mp h
    cases hf
  | binary tag l r =>
    rw [formula?] at h
    split at h <;> cases h
  | call g args =>
    obtain ⟨fs, -, hf⟩ := Option.map_eq_some_iff.mp h
    cases hf
  | scalar x t => cases h
  | product a v => cases h

namespace Store

open DistributedVector.Vector

variable {V : Type} {A : Arithmetic V} {F : Fleet} {m : Memory} {S : Store} {p : Plain}
  {v : VectorId}

/-- The operator of a product does not map its vector into the target. -/
def Misfit (S : Store) (v : VectorId) (q : Product VectorId) : Prop :=
  ∃ d x, S.vectors[v]? = some d ∧ S.vectors[q.vector]? = some x ∧
    ¬ (q.operator.rows = d.size ∧ q.operator.cols = x.size)

/-- The first product of an expression whose operator does not fit is a late one; the products
before it are given. -/
def BreaksOff (S : Store) (v : VectorId) (e : Expr VectorId)
    (before : List (Sign × Product VectorId)) : Prop :=
  ∃ q after, e.split.2 = before ++ q :: after ∧ (∀ r ∈ before, ¬ S.Misfit v r.2) ∧
    S.Misfit v q.2 ∧ (before = [] → e.late v = e.split.2)

theorem Kept.misfit_iff {B : List BufferId} {C : List CellId} {S' : Store} {m' : Memory}
    (h : Kept F B C S m S' m') {q : Product VectorId} : S'.Misfit v q ↔ S.Misfit v q := by
  constructor
  · rintro ⟨d', x', hd', hx', hfits⟩
    obtain ⟨d, hd, hsame⟩ := h.exists_before hd'
    obtain ⟨x, hx, hsame'⟩ := h.exists_before hx'
    rw [Descriptor.size_of_forget hsame, Descriptor.size_of_forget hsame'] at hfits
    exact ⟨d, x, hd, hx, hfits⟩
  · rintro ⟨d, x, hd, hx, hfits⟩
    obtain ⟨d', hd', hsame⟩ := h.exists_after hd
    obtain ⟨x', hx', hsame'⟩ := h.exists_after hx
    rw [← Descriptor.size_of_forget hsame, ← Descriptor.size_of_forget hsame'] at hfits
    exact ⟨d', x', hd', hx', hfits⟩

/-- The operator of a product that is applied fits. -/
theorem not_misfit_of_applyProduct (hS : S.Valid F m) (hp : Represents S m p) {q : Product VectorId}
    {sign : Sign} {append : Bool} {p' : Plain} (h : p.applyProduct v q sign append = some p') :
    ¬ S.Misfit v q := by
  rintro ⟨d, x, hd, hx, hmisfit⟩
  obtain ⟨t, ys, t', xs, -, hv, hw, hfits, -⟩ := Plain.applyProduct_eq_some.mp h
  rw [hp.getElem?_eq_some hd] at hv
  rw [hp.getElem?_eq_some hx] at hw
  cases hv
  cases hw
  rw [(hS.vectors v d hd).1.length_contents, (hS.vectors q.vector x hx).1.length_contents] at hfits
  exact hmisfit hfits

/-- Elements can always be converted to another element type. -/
theorem elements_row (t t' : ElementType) (values : Array Scalar) (count : Nat) (f : NumberFault) :
    (HostData.row t values).elements t' count ≠ .error f := by
  obtain ⟨g, hg⟩ : ∃ g : Scalar → Scalar, t'.cast (.element t) = fun x => pure (g x) := by
    by_cases h : t = t'
    · exact ⟨id, funext fun x => if_pos (h ▸ rfl)⟩
    · exact ⟨t'.convert, funext fun x => if_neg (mt DataType.element.inj h)⟩
  rw [HostData.elements, HostData.row, hg, List.mapM_pure]
  intro h
  cases h

/-- A vector read as a whole. -/
theorem onVector_readAll_ensures (hS : S.Valid F m) (hp : Represents S m p) :
    (onVector v Vector.readAll).Ensures (deviceContract A F.suits)
      (fun data S' m' => Kept F [] [] S m S' m' ∧
        ∃ t xs, p.vectors[v]? = some (t, xs) ∧ data.values = xs.toArray)
      (fun e S' m' => Kept F [] [] S m S' m' ∧ ¬ e.Rejection) S m := by
  rw [onVector_ensures]
  refine ⟨fun d hv => ?_, fun _ => ⟨.refl hS _ _, ?_⟩⟩
  · refine (readAll_ensures (hS.vectors v d hv).1).imp ?_ fun _ _ _ h =>
      ⟨.of_touched hS hv h.1, h.2⟩
    intro data d' m' hpost
    obtain ⟨htouched, -, hvalues⟩ := hpost
    refine ⟨.of_touched hS hv htouched, d.type, d.contents m, hp.getElem?_eq_some hv, ?_⟩
    rw [← hvalues, Array.toArray_toList]
  · simp [Fault.Rejection, Fault.kind, VectorFault.kind]

/-- What is left if a product cannot be applied: only a misfit is a refusal, and then nothing
changes. -/
def Unapplied (F : Fleet) (S : Store) (m : Memory) (v : VectorId) (q : Product VectorId) (e : Fault)
    (S' : Store) (m' : Memory) : Prop :=
  Kept F (S.buffers v) [] S m S' m' ∧
    (e.Rejection → S' = S ∧ m' = m ∧ e.kind = .shape ∧ S.Misfit v q)

/-- The sum is written when nothing but events has changed; it is a row of doubles, which can always
be converted. -/
theorem write_sum_ensures (hS : S.Valid F m) (hp : Represents S m p) {S₁ : Store} {m₁ : Memory}
    (hkept : Kept F [] [] S m S₁ m₁) (count : Int) (sum : Array Float) {q : Product VectorId} :
    (onVector v (Vector.write 0 count ⟨.element .float64, [sum.size], sum.map Scalar.float⟩
      true)).Ensures (deviceContract A F.suits)
      (fun _ S' m' => Kept F (S.buffers v) [] S m S' m' ∧
        Becomes F (p.write v 0 count (.row .float64 (sum.map Scalar.float))) S' m')
      (Unapplied F S m v q) S₁ m₁ := by
  have hkept₁ := hkept.mono (List.nil_subset (S.buffers v)) (List.Subset.refl _)
  have hrow : (⟨.element .float64, [sum.size], sum.map Scalar.float⟩ : HostData) =
      .row .float64 (sum.map Scalar.float) := by
    rw [HostData.row, Array.size_map]
  rw [hrow]
  apply (onVector_write_ensures (hkept.valid hS) (hp.of_kept hS hkept)).imp
  · intro _ S' m' hpost
    obtain ⟨hkept', hbecomes⟩ := hpost
    rw [hkept.buffers_eq] at hkept'
    exact ⟨hkept₁.trans hkept', hbecomes⟩
  · intro e S' m' hpost
    obtain ⟨hkept', hrejected⟩ := hpost
    rw [hkept.buffers_eq] at hkept'
    refine ⟨hkept₁.trans hkept', fun hr => ?_⟩
    obtain ⟨t, f, hf⟩ := hrejected hr
    exact absurd hf (elements_row _ _ _ _ _)

theorem applyProduct_ensures (hS : S.Valid F m) (hp : Represents S m p) {q : Product VectorId}
    {sign : Sign} {append : Bool} :
    (applyProduct v q sign append).Ensures (deviceContract A F.suits)
      (fun _ S' m' => Kept F (S.buffers v) [] S m S' m' ∧
        Becomes F (p.applyProduct v q sign append) S' m')
      (Unapplied F S m v q) S m := by
  have hunknown : Unapplied F S m v q (.vector .unknownVector) S m :=
    ⟨.refl hS _ _, fun hr => absurd hr (by simp [Fault.Rejection, Fault.kind, VectorFault.kind])⟩
  rw [applyProduct, Task.ensures_bind, vector_ensures]
  refine ⟨fun d hv => ?_, fun _ => hunknown⟩
  rw [Task.ensures_bind, vector_ensures]
  refine ⟨fun x hx => ?_, fun _ => hunknown⟩
  rw [Task.ensures_ite]
  refine ⟨fun hmisfit => ?_, fun hfits => ?_⟩
  · rw [Task.ensures_bind, Task.ensures_throw]
    exact ⟨.refl hS _ _, fun _ => ⟨rfl, rfl, rfl, d, x, hv, hx, by omega⟩⟩
  obtain ⟨hrows, hcols⟩ : q.operator.rows = d.size ∧ q.operator.cols = x.size := by omega
  have hsize := (hS.vectors v d hv).1.length_contents
  have hlookup := hp.getElem?_eq_some hv
  have hlookup' := hp.getElem?_eq_some hx
  have hbroken : ∀ {S' m' e}, Kept F [] [] S m S' m' → ¬ e.Rejection →
      Unapplied F S m v q e S' m' :=
    fun hkept he => ⟨hkept.mono (List.nil_subset _) (List.Subset.refl _), fun hr => absurd hr he⟩
  -- the vector is read, multiplied on the host, added to the target if so, and the sum is written
  simp only [Task.ensures_bind]
  apply ensures_multiply
  refine (onVector_readAll_ensures hS hp).imp ?_ fun _ _ _ h => hbroken h.1 h.2
  intro xs S₁ m₁ hpost
  obtain ⟨hkept₁, t, zs, hzs, hxs⟩ := hpost
  obtain ⟨rfl, rfl⟩ : t = x.type ∧ zs = x.contents m := by
    rw [hlookup'] at hzs
    cases hzs
    exact ⟨rfl, rfl⟩
  have hcols' : q.operator.cols = (x.contents m).length := by
    rw [hcols, (hS.vectors q.vector x hx).1.length_contents]
  rw [hxs, List.map_toArray]
  split
  next => exact hbroken hkept₁ (by simp [Fault.Rejection, Fault.kind, VectorFault.kind])
  next product hproduct =>
    have hunfold : p.applyProduct v q sign append = p.write v 0 d.size (.row .float64
        ((if append then addEntries product ((d.contents m).map Scalar.toFloat).toArray
          else product).map Scalar.float)) := by
      simp [Plain.applyProduct, hlookup, hlookup', hrows, hcols', hsize, hproduct]
    cases append with
    | false =>
      rw [hunfold]
      exact write_sum_ensures hS hp hkept₁ _ _
    | true =>
      simp only [if_true, Task.ensures_bind]
      refine (onVector_readAll_ensures (hkept₁.valid hS) (hp.of_kept hS hkept₁)).imp ?_
        fun _ _ _ h => hbroken (hkept₁.trans h.1) h.2
      intro ys S₂ m₂ hpost
      obtain ⟨hkept₂, t, zs, hzs, hys⟩ := hpost
      rw [hlookup] at hzs
      cases hzs
      rw [hys, List.map_toArray, hunfold]
      exact write_sum_ensures hS hp (hkept₁.trans hkept₂) _ _

/-- What is left if products cannot all be applied: only the first misfit is a refusal, and then the
products before it have been applied. -/
def BrokenOff (F : Fleet) (S : Store) (m : Memory) (p : Plain) (v : VectorId) (append : Bool)
    (products : List (Sign × Product VectorId)) (e : Fault) (S' : Store) (m' : Memory) : Prop :=
  Kept F (S.buffers v) [] S m S' m' ∧ (e.Rejection → e.kind = .shape ∧ ∃ before q after,
    products = before ++ q :: after ∧ (∀ r ∈ before, ¬ S.Misfit v r.2) ∧ S.Misfit v q.2 ∧
      (before = [] → S' = S ∧ m' = m) ∧ Becomes F (p.applyProducts v append before) S' m')

/-- Products are applied in turn. -/
theorem applyProducts_ensures {products : List (Sign × Product VectorId)} {append : Bool}
    (hS : S.Valid F m) (hp : Represents S m p) :
    (applyProducts v append products).Ensures (deviceContract A F.suits)
      (fun _ S' m' => Kept F (S.buffers v) [] S m S' m' ∧
        Becomes F (p.applyProducts v append products) S' m')
      (BrokenOff F S m p v append products) S m := by
  induction products generalizing S m p append with
  | nil => exact ⟨.refl hS _ _, (Kept.refl hS [] []).becomes_self hS hp⟩
  | cons head rest ih =>
    obtain ⟨sign, q⟩ := head
    rw [applyProducts, Task.ensures_bind]
    apply (applyProduct_ensures hS hp).imp
    · intro _ S₁ m₁ hpost
      obtain ⟨hkept, hvalid, p₁, hp₁, hrep⟩ := hpost
      have hfits := not_misfit_of_applyProduct hS hp hp₁
      have hstep : ∀ products, p.applyProducts v append ((sign, q) :: products) =
          p₁.applyProducts v true products := fun products => by
        rw [Plain.applyProducts, hp₁, Option.bind_eq_bind, Option.bind_some]
      apply (ih hvalid hrep).imp
      · intro _ S' m' hpost
        obtain ⟨hkept', hbecomes⟩ := hpost
        rw [hkept.buffers_eq] at hkept'
        rw [hstep]
        exact ⟨hkept.trans hkept', hbecomes⟩
      · -- a misfit behind the first product comes late: that product has been applied
        intro e S' m' hpost
        obtain ⟨hkept', hrejected⟩ := hpost
        rw [hkept.buffers_eq] at hkept'
        refine ⟨hkept.trans hkept', fun hr => ?_⟩
        obtain ⟨hkind, before, q', after, hsplit, hbefore, hmisfit, -, hbecomes⟩ := hrejected hr
        refine ⟨hkind, (sign, q) :: before, q', after, congrArg _ hsplit, ?_,
          hkept.misfit_iff.mp hmisfit, fun h => absurd h (List.cons_ne_nil _ _), ?_⟩
        · rintro r (_ | ⟨_, hr⟩)
          · exact hfits
          · exact mt hkept.misfit_iff.mpr (hbefore r hr)
        · rw [hstep]
          exact hbecomes
    · intro e S' m' hpost
      obtain ⟨hkept, hrejected⟩ := hpost
      refine ⟨hkept, fun hr => ?_⟩
      obtain ⟨rfl, rfl, hkind, hmisfit⟩ := hrejected hr
      exact ⟨hkind, [], (sign, q), rest, rfl, fun _ h => absurd h List.not_mem_nil, hmisfit,
        fun _ => ⟨rfl, rfl⟩, (Kept.refl hS [] []).becomes_self hS hp⟩

/-- What is left if an assignment fails: a refusal changes nothing, unless it is that of a misfit
that comes late. -/
def Unassigned {V : Type} (A : Arithmetic V) (F : Fleet) (S : Store) (m : Memory) (p : Plain)
    (v : VectorId) (source : Operand VectorId) (fault : Fault) (S' : Store) (m' : Memory) : Prop :=
  Kept F (S.buffers v) [] S m S' m' ∧ (fault.Rejection →
    S'.vectors = S.vectors ∧ m.Differs [] [] m' ∨
      fault.kind = .shape ∧ ∃ e before, source.toExpr = .ok e ∧ S.BreaksOff v e before ∧
        Becomes F (p.assignUpTo A.byKernel v e before) S' m')

/-- The products of an expression are applied when its rest has been assigned; they come late unless
nothing has changed by then. -/
theorem applyLate_ensures {source : Operand VectorId} {e : Expr VectorId}
    (he : source.toExpr = .ok e) {rest : Option (Expr VectorId)}
    {products : List (Sign × Product VectorId)} (hsplit : e.split = (rest, products)) {S₁ : Store}
    {m₁ : Memory} {p₁ : Plain} (hkept : Kept F (S.buffers v) [] S m S₁ m₁) (hvalid : S₁.Valid F m₁)
    (hrep : Represents S₁ m₁ p₁) (hrest : p.assignRest A.byKernel v rest = some p₁)
    (hlate : S₁ = S ∧ m₁ = m ∨ e.late v = products) :
    (applyProducts v rest.isSome products).Ensures (deviceContract A F.suits)
      (fun _ S' m' => Kept F (S.buffers v) [] S m S' m' ∧
        ∃ e, source.toExpr = .ok e ∧ Becomes F (p.assignAll A.byKernel v e) S' m')
      (Unassigned A F S m p v source) S₁ m₁ := by
  have hupTo : ∀ products,
      p.assignUpTo A.byKernel v e products = p₁.applyProducts v rest.isSome products := by
    intro products
    rw [Plain.assignUpTo, hsplit, hrest, Option.bind_eq_bind, Option.bind_some]
  apply (applyProducts_ensures hvalid hrep).imp
  · intro _ S' m' hpost
    obtain ⟨hkept', hbecomes⟩ := hpost
    rw [hkept.buffers_eq] at hkept'
    refine ⟨hkept.trans hkept', e, he, ?_⟩
    rw [Plain.assignAll, hupTo, hsplit]
    exact hbecomes
  · intro fault S' m' hpost
    obtain ⟨hkept', hrejected⟩ := hpost
    rw [hkept.buffers_eq] at hkept'
    refine ⟨hkept.trans hkept', fun hr => ?_⟩
    obtain ⟨hkind, before, q, after, hbreak, hbefore, hmisfit, hfirst, hbecomes⟩ := hrejected hr
    have hbroken : (before = [] → e.late v = products) → S.BreaksOff v e before := fun hnil =>
      ⟨q, after, by rw [hsplit, hbreak], fun r hr => mt hkept.misfit_iff.mpr (hbefore r hr),
        hkept.misfit_iff.mp hmisfit, by rwa [hsplit]⟩
    rw [← hupTo] at hbecomes
    -- a misfit of the first product is an early one if nothing has been written, and late otherwise
    rcases hlate with ⟨rfl, rfl⟩ | hall
    · by_cases hnil : before = []
      · obtain ⟨rfl, rfl⟩ := hfirst hnil
        exact .inl ⟨rfl, .refl _ _ _⟩
      · exact .inr ⟨hkind, e, before, he, hbroken fun h => absurd h hnil, hbecomes⟩
    · exact .inr ⟨hkind, e, before, he, hbroken fun _ => hall, hbecomes⟩

/-- An assignment is that of the plain arrays: first the rest, then the products in turn. -/
theorem assign_ensures (hS : S.Valid F m) (hp : Represents S m p) {source : Operand VectorId} :
    (assign v source).Ensures (deviceContract A F.suits)
      (fun _ S' m' => Kept F (S.buffers v) [] S m S' m' ∧
        ∃ e, source.toExpr = .ok e ∧ Becomes F (p.assignAll A.byKernel v e) S' m')
      (Unassigned A F S m p v source) S m := by
  have hstopped : ∀ {fault S' m'}, Stopped F (S.buffers v) [] S m fault S' m' →
      Unassigned A F S m p v source fault S' m' := fun h => ⟨h.1, fun hr => .inl (h.2 hr)⟩
  unfold assign
  split
  next w =>
    refine (copyFrom_ensures hS hp).imp ?_ fun _ _ _ h => hstopped h
    intro _ S' m' hpost
    obtain ⟨hkept, hbecomes⟩ := hpost
    refine ⟨hkept, .vector w, rfl, ?_⟩
    rw [Plain.assignAll_of_formula? rfl]
    exact hbecomes
  next other hother =>
    rw [Task.ensures_bind, ensures_orFault]
    refine ⟨fun e he => ?_, fun _ _ => hstopped (.self hS _ _ _)⟩
    have hself : Kept F (S.buffers v) [] S m S m := .refl hS _ _
    -- there is no rest, or the rest is a vector, which may be the target itself, or it is evaluated
    rcases hsplit : e.split with ⟨rest, products⟩
    simp only
    split
    · exact applyLate_ensures he hsplit hself hS hp rfl (.inl ⟨rfl, rfl⟩)
    next w =>
      rw [Task.ensures_bind]
      by_cases hw : v = w
      · rw [copyFrom, if_pos hw, Task.ensures_pure]
        exact applyLate_ensures he hsplit hself hS hp (if_pos hw) (.inl ⟨rfl, rfl⟩)
      · refine (copyFrom_ensures hS hp).imp ?_ fun _ _ _ h => hstopped h
        intro _ S₁ m₁ hpost
        obtain ⟨hkept, hvalid, p₁, hp₁, hrep⟩ := hpost
        refine applyLate_ensures he hsplit hkept hvalid hrep hp₁ (.inr ?_)
        simp [Expr.late, hsplit, Ne.symm hw]
    next r hr =>
      rw [Task.ensures_bind]
      refine (evaluate_ensures hS hp).imp ?_ fun _ _ _ h => hstopped h
      intro _ S₁ m₁ hpost
      obtain ⟨hkept, f, hf, hvalid, p₁, hp₁, hrep⟩ := hpost
      refine applyLate_ensures he hsplit hkept hvalid hrep ?_ (.inr ?_)
      · simp only [Plain.assignRest, hf, Option.bind_eq_bind, Option.bind_some, Plain.assignFormula]
        split
        next w => exact (hr w (Expr.formula?_eq_vector hf)).elim
        · exact hp₁
      · cases r with
        | vector w => exact (hr w rfl).elim
        | _ => simp [Expr.late, hsplit]

/-- An assignment keeps the store valid, and without products it is the one of plain arrays. -/
theorem assign_ensures_of_free (hS : S.Valid F m) (hp : Represents S m p)
    {source : Operand VectorId} :
    (assign v source).Ensures (deviceContract A F.suits)
      (fun _ S' m' => S'.Valid F m' ∧ (source.Free →
        Becomes F (p.assign A.byKernel v source) S' m'))
      (fun _ S' m' => S'.Valid F m') S m := by
  refine (assign_ensures hS hp).imp ?_ fun _ _ _ h => h.1.valid hS
  intro _ S' m' hpost
  obtain ⟨hkept, e, he, hbecomes⟩ := hpost
  refine ⟨hkept.valid hS, fun hfree => ?_⟩
  obtain ⟨f, hf⟩ := hfree e he
  rw [Plain.assignAll_of_formula? hf] at hbecomes
  simpa [Plain.assign, he, hf, Except.toOption] using hbecomes

end Store

end DistributedVector
