import DistributedVector.Proofs.Refinement

/-!
# Targets that occur in what they are assigned

An assignment reads vectors while it writes its target. Without products all reads come first, so
that the target may occur anywhere. A product reads its vector when its turn comes, so that the
target is safe as the vector of the first product, if nothing has been written before, and of no
other one. As long as no late product multiplies the target, the target ends up with what a new
vector of its type and layout ends up with, in whose expression it cannot occur.

## Main definitions

* `Plain.Beside` — plain arrays where one vector plays the part of another
* `Descriptor.twin` — the request for a vector of the same type and layout

## Main results

* `Plain.assignAll_beside` — the target and the new vector end up with the same elements
* `Reachable.assign_eq_new` — the same of partitioned vectors
-/

namespace DistributedVector

namespace Plain

variable {E : Evaluation} {p p' q : Plain} {v u w : VectorId} {t : ElementType}
  {xs ys zs : List Scalar}

/-- The vector `u`, which is missing on the one side, plays on the other side the part of `v`: it
has as many elements of the same type. All other vectors are the same. -/
structure Beside (p q : Plain) (v u : VectorId) (t : ElementType) (xs ys : List Scalar) : Prop where
  target : p.vectors[v]? = some (t, xs)
  twin : q.vectors[u]? = some (t, ys)
  length : ys.length = xs.length
  others : ∀ w z, w ≠ v → p.vectors[w]? = some z → q.vectors[w]? = some z
  missing : p.vectors[u]? = none

/-- The same elements go to both. -/
theorem Beside.put (h : Beside p q v u t xs ys) :
    Beside (p.put v t zs) (q.put u t zs) v u t zs zs := by
  have hv := (Array.getElem?_eq_some_iff.mp h.target).1
  have hu := (Array.getElem?_eq_some_iff.mp h.twin).1
  have hne : v ≠ u := by
    rintro rfl
    simpa [h.missing] using h.target
  refine ⟨getElem?_put_self hv, getElem?_put_self hu, rfl, fun w z hw hz => ?_, ?_⟩
  · rw [getElem?_put_of_ne (Ne.symm hw)] at hz
    have hwu : u ≠ w := by
      rintro rfl
      simp [h.missing] at hz
    rw [getElem?_put_of_ne hwu]
    exact h.others w z hw hz
  · rw [getElem?_put_of_ne hne]
    exact h.missing

/-- A write succeeds if the range and the numbers fit. -/
theorem write_eq_some {offset count : Int} {data : HostData} :
    p.write v offset count data = some q ↔ ∃ t xs values, p.vectors[v]? = some (t, xs) ∧
      Vector.Covers xs.length offset count ∧ data.elements t count.toNat = .ok values ∧
      values.size = count.toNat ∧ q = p.put v t (overlay offset.toNat values.toList xs) := by
  have hok : ∀ {r : Except NumberFault (Array Scalar)} {a}, r.toOption = some a ↔ r = .ok a := by
    intro r a
    cases r <;> simp [Except.toOption]
  simp only [write, Option.bind_eq_bind, Option.bind_eq_some_iff, guard_eq_some, Prod.exists, hok]
  constructor
  · rintro ⟨t, xs, hv, -, hcovers, values, hvalues, -, hsize, hq⟩
    exact ⟨t, xs, values, hv, hcovers, hvalues, hsize, (Option.some_inj.mp hq).symm⟩
  · rintro ⟨t, xs, values, hv, hcovers, hvalues, hsize, rfl⟩
    exact ⟨t, xs, hv, (), hcovers, values, hvalues, (), hsize, rfl⟩

/-- Writing the same numbers over all elements. -/
theorem write_beside (h : Beside p q v u t xs ys) {data : HostData}
    (hwrite : p.write v 0 xs.length data = some p') :
    ∃ zs q', q.write u 0 ys.length data = some q' ∧ Beside p' q' v u t zs zs := by
  obtain ⟨t', xs', values, hv, -, hvalues, hsize, rfl⟩ := write_eq_some.mp hwrite
  obtain ⟨rfl, rfl⟩ : t = t' ∧ xs = xs' := by simpa using h.target.symm.trans hv
  have hall : ∀ {zs : List Scalar}, zs.length = xs.length →
      overlay 0 values.toList zs = values.toList :=
    fun hzs => overlay_zero_of_length (by rw [Array.length_toList, hsize, hzs, Int.toNat_natCast])
  refine ⟨values.toList, q.put u t values.toList, write_eq_some.mpr ⟨t, ys, values, h.twin,
    .inr ⟨Int.le_refl 0, Int.natCast_nonneg _, by omega⟩, ?_, ?_, ?_⟩, ?_⟩
  · rw [h.length]
    exact hvalues
  · rw [h.length]
    exact hsize
  · rw [Int.toNat_zero, hall h.length]
  · rw [Int.toNat_zero, hall rfl]
    exact h.put

/-- A product reads the same elements, if its vector is the same on both sides. -/
theorem applyProduct_beside (h : Beside p q v u t xs ys) {r : Product VectorId} {sign : Sign}
    {append : Bool} (hvector : ∀ z, p.vectors[r.vector]? = some z → q.vectors[r.vector]? = some z)
    (happend : append = true → ys = xs) (hp : p.applyProduct v r sign append = some p') :
    ∃ zs q', q.applyProduct u r sign append = some q' ∧ Beside p' q' v u t zs zs := by
  obtain ⟨t', xs', t'', ws, product, hv, hw, hfits, hproduct, hwrite⟩ := applyProduct_eq_some.mp hp
  obtain ⟨rfl, rfl⟩ : t = t' ∧ xs = xs' := by simpa using h.target.symm.trans hv
  obtain ⟨zs, q', hq', hbeside⟩ := write_beside h hwrite
  refine ⟨zs, q', applyProduct_eq_some.mpr
    ⟨t, ys, t'', ws, product, h.twin, hvector _ hw, ?_, ?_, ?_⟩, hbeside⟩
  · rw [h.length]
    exact hfits
  · rw [h.length]
    exact hproduct
  · cases append with
    | false => exact hq'
    | true =>
      rw [happend rfl] at hq' ⊢
      exact hq'

/-- Products that do not multiply the target. -/
theorem applyProducts_beside {products : List (Sign × Product VectorId)} :
    ∀ {p q : Plain} {xs : List Scalar} {append : Bool}, Beside p q v u t xs xs →
    (∀ r ∈ products, r.2.vector ≠ v) → p.applyProducts v append products = some p' →
    ∃ zs q', q.applyProducts u append products = some q' ∧ Beside p' q' v u t zs zs := by
  induction products with
  | nil =>
    rintro p q xs append h - ⟨⟩
    exact ⟨xs, q, rfl, h⟩
  | cons head rest ih =>
    obtain ⟨sign, r⟩ := head
    intro p q xs append h hne hp
    obtain ⟨p₁, hp₁, hrest⟩ := Option.bind_eq_some_iff.mp hp
    obtain ⟨zs, q₁, hq₁, h₁⟩ := applyProduct_beside h
      (fun z hz => h.others _ z (hne _ List.mem_cons_self) hz) (fun _ => rfl) hp₁
    obtain ⟨zs', q', hq', h'⟩ := ih h₁ (fun r hr => hne r (List.mem_cons_of_mem _ hr)) hrest
    exact ⟨zs', q', Option.bind_eq_some_iff.mpr ⟨q₁, hq₁, hq'⟩, h'⟩

/-- A target that takes its own elements stays, and the other vector takes them. -/
theorem take_self_beside (h : Beside p q v u t xs ys) (hv : q.vectors[v]? = some (t, xs)) :
    ∃ q', q.take E u v = some q' ∧ Beside p q' v u t xs xs ∧ q'.vectors[v]? = some (t, xs) := by
  have hne : u ≠ v := by
    rintro rfl
    simpa [h.missing] using h.target
  have hself : p.put v t xs = p := Plain.ext (setIfInBounds_eq_self h.target) rfl
  refine ⟨q.put u t xs, by simp [take, hne, h.twin, hv], ?_, ?_⟩
  · have hput : Beside (p.put v t xs) (q.put u t xs) v u t xs xs := h.put
    rwa [hself] at hput
  · rw [getElem?_put_of_ne hne, hv]

/-- The rest reads all its vectors first, the target among them. -/
theorem assignFormula_beside (h : Beside p q v u t xs ys) (hv : q.vectors[v]? = some (t, xs))
    {f : Formula VectorId} (hp : p.assignFormula E v f = some p') :
    ∃ zs q', q.assignFormula E u f = some q' ∧ Beside p' q' v u t zs zs := by
  -- all vectors that there are without the new one are the same beside it
  have hall : ∀ (w : VectorId) z, p.vectors[w]? = some z → q.vectors[w]? = some z := by
    intro w z hw
    by_cases hwv : w = v
    · subst hwv
      rw [hv, ← h.target, hw]
    · exact h.others w z hwv hw
  have hmissing : ∀ {w z}, p.vectors[w]? = some z → u ≠ w := by
    rintro w z hw rfl
    simp [h.missing] at hw
  have hresults : ∀ {f : Formula VectorId} {n zs}, E.results t n (p.vectors[·]?) f = some zs →
      E.results t n (q.vectors[·]?) f = some zs := Evaluation.results_mono hall
  unfold assignFormula at hp ⊢
  split at hp
  next w =>
    rw [take] at hp
    split at hp
    next hvw =>
      subst hvw
      cases hp
      obtain ⟨q', hq', hbeside, -⟩ := take_self_beside (E := E) h hv
      exact ⟨xs, q', hq', hbeside⟩
    next hvw =>
      simp only [h.target, Option.bind_eq_bind, Option.bind_some, Option.bind_eq_some_iff,
        Prod.exists] at hp
      obtain ⟨t', ws, hw, hp⟩ := hp
      simp only [take, if_neg (hmissing hw), h.twin, hall w _ hw, Option.bind_eq_bind,
        Option.bind_some]
      split at hp
      next htypes =>
        cases hp
        exact ⟨ws, q.put u t ws, if_pos htypes, h.put⟩
      next htypes =>
        obtain ⟨zs, hzs, hp⟩ := Option.bind_eq_some_iff.mp hp
        cases hp
        exact ⟨zs, q.put u t zs, by simp [htypes, hresults hzs], h.put⟩
  next hother =>
    simp only [evaluate, h.target, Option.bind_eq_bind, Option.bind_some,
      Option.bind_eq_some_iff] at hp
    obtain ⟨zs, hzs, hp⟩ := hp
    cases hp
    refine ⟨zs, q.put u t zs, ?_, h.put⟩
    simp only [evaluate, h.twin, Option.bind_eq_bind, Option.bind_some]
    rw [h.length, hresults hzs]
    rfl

/-- Products of which the first one may multiply the target, as long as the target is as it was. -/
theorem applyProducts_beside_of_tail {append : Bool} {products : List (Sign × Product VectorId)}
    (h : Beside p q v u t xs ys) (hv : q.vectors[v]? = some (t, xs))
    (happend : append = true → ys = xs) (hsome : products ≠ [] ∨ append = true)
    (htail : ∀ r ∈ products.tail, r.2.vector ≠ v)
    (hp : p.applyProducts v append products = some p') :
    ∃ zs q', q.applyProducts u append products = some q' ∧ Beside p' q' v u t zs zs := by
  cases products with
  | nil =>
    obtain rfl := happend (hsome.resolve_left (absurd rfl))
    cases hp
    exact ⟨ys, q, rfl, h⟩
  | cons head rest =>
    obtain ⟨sign, r⟩ := head
    obtain ⟨p₁, hp₁, hrest⟩ := Option.bind_eq_some_iff.mp hp
    have hvector : ∀ z, p.vectors[r.vector]? = some z → q.vectors[r.vector]? = some z := by
      intro z hz
      by_cases hr : r.vector = v
      · rw [hr] at hz ⊢
        rw [hv, ← h.target, hz]
      · exact h.others _ z hr hz
    obtain ⟨zs, q₁, hq₁, h₁⟩ := applyProduct_beside h hvector happend hp₁
    obtain ⟨zs', q', hq', h'⟩ := applyProducts_beside h₁ htail hrest
    exact ⟨zs', q', Option.bind_eq_some_iff.mpr ⟨q₁, hq₁, hq'⟩, h'⟩

end Plain

/-- There is a product if there is no rest. -/
theorem Expr.split_ne {ν : Type} (e : Expr ν) : e.split ≠ (none, []) := by
  cases e with
  | binary tag l r =>
    rw [split]
    split
    · simp
    split
    · simp
    · split
      split <;> simp
    · simp
  | _ => simp [split]

/-- As long as no late product multiplies it, a target ends up with what a new vector in its place
ends up with. -/
theorem Plain.assignAll_beside {E : Evaluation} {p p' q : Plain} {v u : VectorId}
    {t : ElementType} {xs ys : List Scalar} {e : Expr VectorId} (h : Beside p q v u t xs ys)
    (hv : q.vectors[v]? = some (t, xs)) (hlate : ∀ r ∈ e.late v, r.2.vector ≠ v)
    (hp : p.assignAll E v e = some p') :
    ∃ zs q', q.assignAll E u e = some q' ∧ Beside p' q' v u t zs zs := by
  obtain ⟨p₁, hrest, hproducts⟩ := Option.bind_eq_some_iff.mp hp
  have hne := e.split_ne
  unfold Expr.late at hlate
  unfold assignAll assignUpTo
  rcases hsplit : e.split with ⟨_ | r, products⟩
  · -- only products: the first one replaces the elements
    rw [hsplit] at hrest hproducts hlate hne
    cases hrest
    exact applyProducts_beside_of_tail h hv (fun h => absurd h Bool.false_ne_true)
      (.inl fun hnil => hne (hnil ▸ rfl)) hlate hproducts
  rw [hsplit] at hrest hproducts hlate
  obtain ⟨f, hf, hrest⟩ := Option.bind_eq_some_iff.mp hrest
  by_cases hself : r = .vector v
  · -- the target is its own rest, and is as it was when the first product reads it
    subst hself
    cases hf
    obtain rfl : p = p₁ := by simpa [assignFormula, take] using hrest
    obtain ⟨q₁, hq₁, h₁, hv₁⟩ := take_self_beside (E := E) h hv
    obtain ⟨zs, q', hq', h'⟩ := applyProducts_beside_of_tail h₁ hv₁ (fun _ => rfl) (.inr rfl)
      (by simpa using hlate) hproducts
    exact ⟨zs, q', Option.bind_eq_some_iff.mpr ⟨q₁, hq₁, hq'⟩, h'⟩
  · obtain ⟨zs, q₁, hq₁, h₁⟩ := assignFormula_beside h hv hrest
    have hall : ∀ s ∈ products, s.2.vector ≠ v := by
      cases r with
      | vector w => simpa [show w ≠ v from fun hw => hself (hw ▸ rfl)] using hlate
      | _ => exact hlate
    obtain ⟨zs', q', hq', h'⟩ := applyProducts_beside h₁ hall hproducts
    refine ⟨zs', q', Option.bind_eq_some_iff.mpr ⟨q₁, ?_, hq'⟩, h'⟩
    exact Option.bind_eq_some_iff.mpr ⟨f, hf, hq₁⟩

/-- The request for a vector of the same type, with the same elements on each device. -/
def Descriptor.twin (d : Descriptor) (access : Access) : Blueprint :=
  ⟨d.devices, .count d.size, none, .exact d.type, access, d.session,
    some (d.boundaries.map Int.ofNat)⟩

/-- A twin is a new vector of zeros. -/
theorem Plain.construct_twin (p : Plain) (d : Descriptor) (access : Access) :
    p.construct (d.twin access) = some (.vector p.vectors.size,
      { p with vectors := p.vectors.push (d.type, List.replicate d.size d.type.zero) }) := by
  have htype : (do (← TypeRequest.resolve (.exact d.type) none).supported :
      Except ExprFault ElementType) = .ok d.type := rfl
  simp [construct, extent, initial, Descriptor.twin, htype, Except.toOption]

/-- A new vector of as many elements of the same type is beside the vector, which stays. -/
theorem Plain.beside_push {p : Plain} {v : VectorId} {t : ElementType} {xs ys : List Scalar}
    (hv : p.vectors[v]? = some (t, xs)) (hlength : ys.length = xs.length) :
    Beside p { p with vectors := p.vectors.push (t, ys) } v p.vectors.size t xs ys ∧
      (p.vectors.push (t, ys))[v]? = some (t, xs) := by
  have hstays : ∀ {w : VectorId} {z}, p.vectors[w]? = some z →
      (p.vectors.push (t, ys))[w]? = some z := by
    intro w z hw
    have hlt := (Array.getElem?_eq_some_iff.mp hw).1
    rwa [Array.getElem?_push_lt hlt, ← Array.getElem?_eq_getElem hlt]
  exact ⟨⟨hv, Array.getElem?_push_size, hlength, fun _ _ _ hw => hstays hw, Array.getElem?_size⟩,
    hstays hv⟩

section

variable {σ V : Type} {A : Arithmetic V} {h : Handler σ} {view : σ → Memory} {hardware : Hardware}
  {S S₁ S₂ S₃ : Store} {x x₁ x₂ x₃ : σ} {v u : VectorId} {d : Descriptor} {access : Access}
  {source : Operand VectorId} {e : Expr VectorId}

/-- If the target is not multiplied by a late product, an assignment to it leaves what the same
assignment leaves in a new vector of its type and layout. -/
theorem Reachable.assign_eq_new (meets : h.Meets view (deviceContract A fun _ _ _ => True))
    (hreach : Reachable h view (.unrestricted hardware) S x) (hv : S.vectors[v]? = some d)
    (he : source.toExpr = .ok e) (hlate : ∀ r ∈ e.late v, r.2.vector ≠ v)
    (hassign : ((Store.assign v source).runFrom S).run h x = ((.ok (), S₁), x₁))
    (hnew : ((Store.construct (d.twin access)).runFrom S).run h x = ((.ok u, S₂), x₂))
    (hassign' : ((Store.assign u source).runFrom S₂).run h x₂ = ((.ok (), S₃), x₃)) :
    ∃ xs, (S₁.plain (view x₁)).vectors[v]? = some (d.type, xs) ∧
      (S₃.plain (view x₃)).vectors[u]? = some (d.type, xs) := by
  have hS := hreach.valid meets
  have hself := Store.Represents.self (view x) S
  have hlookup := hself.getElem?_eq_some hv
  have hsize := (hS.vectors v d hv).1.length_contents
  -- the assignment to the vector
  obtain ⟨-, e₁, he₁, -, p', hp', hrep'⟩ := (Store.assign_ensures hS hself).of_run_ok meets hassign
  obtain rfl := Except.ok.inj (he.symm.trans he₁)
  -- the new vector, and the assignment to it
  obtain ⟨q, hq, hvalid, hrep⟩ :=
    (Store.construct_ensures hS hself trivial (Plain.offers_count _ _)).of_run_ok meets hnew
  rw [Plain.construct_twin] at hq
  obtain ⟨hu, rfl⟩ := Prod.mk.inj (Option.some_inj.mp hq)
  obtain rfl := Answer.vector.inj hu
  obtain ⟨-, e₂, he₂, -, q', hq', hrep₃⟩ :=
    (Store.assign_ensures hvalid hrep).of_run_ok meets hassign'
  obtain rfl := Except.ok.inj (he.symm.trans he₂)
  -- both take the same course
  have hlength : (List.replicate d.size d.type.zero).length = (d.contents (view x)).length := by
    rw [List.length_replicate, hsize]
  obtain ⟨hbeside, hstays⟩ := Plain.beside_push hlookup hlength
  obtain ⟨zs, q'', hq'', hbeside'⟩ := Plain.assignAll_beside hbeside hstays hlate hp'
  obtain rfl := Option.some_inj.mp (hq'.symm.trans hq'')
  refine ⟨zs, ?_, ?_⟩
  · rw [Store.plain, ← hrep'.vectors]
    exact hbeside'.target
  · rw [Store.plain, ← hrep₃.vectors]
    exact hbeside'.twin

end

namespace Sample

/-- Multiplies by a number. -/
def scaling : LinearOperator := ⟨"scaling", 3, 3, fun alpha x _ => some (x.map (alpha * ·))⟩

/-- One vector of three doubles, one of them on the first device. -/
def doubles : Store × Machine.Executing :=
  after (.construct ⟨[0, 1], .count 3, none, .exact .float64, .readWrite, 0, some [0, 1, 3]⟩)
    (store, machine)

theorem reachable_doubles :
    Reachable Machine.Executing.handle Machine.Executing.memory (.unrestricted hardware) doubles.1
      doubles.2 :=
  reachable_after (reachable_store rfl) (Plain.offers_count _ _) trivial

/-- The vector of doubles. -/
def descriptor : Descriptor :=
  ⟨0, .float64, .readWrite, [⟨0, 1, some 1, none⟩, ⟨1, 2, some 2, none⟩]⟩

/-- The vector plus its own product. -/
def sum : Expr VectorId := .binary BinaryOp.add.tag (.vector 0) (.product scaling 0)

/-- The store and the machine when the new vector has been made. -/
def doubled : Store × Machine.Executing := after (.construct (descriptor.twin .readWrite)) doubles

end Sample

/-- A vector is assigned the sum of itself and its own product. -/
theorem Reachable.assign_eq_new_sample : ∃ S₁ x₁ S₂ x₂ S₃ x₃,
    Sample.run (Store.assign 0 (.expr Sample.sum)) Sample.doubles = ((.ok (), S₁), x₁) ∧
    Sample.run (Store.construct (Sample.descriptor.twin .readWrite)) Sample.doubles =
      ((.ok 1, S₂), x₂) ∧
    Sample.run (Store.assign 1 (.expr Sample.sum)) (S₂, x₂) = ((.ok (), S₃), x₃) ∧
    ∃ xs, (S₁.plain x₁.memory).vectors[0]? = some (.float64, xs) ∧
      (S₃.plain x₃.memory).vectors[1]? = some (.float64, xs) := by
  have hlate : Sample.sum.late 0 = [] := rfl
  have hassign := Sample.run_of_result (t := Store.assign 0 (.expr Sample.sum))
    (s := Sample.doubles) (a := ()) (by decide +kernel)
  have hnew := Sample.run_of_result (t := Store.construct (Sample.descriptor.twin .readWrite))
    (s := Sample.doubles) (a := 1) (by decide +kernel)
  have hassign' := Sample.run_of_result (t := Store.assign 1 (.expr Sample.sum))
    (s := Sample.doubled) (a := ()) (by decide +kernel)
  exact ⟨_, _, _, _, _, _, hassign, hnew, hassign',
    Reachable.assign_eq_new (Machine.Executing.meets _)
    Sample.reachable_doubles rfl rfl (by simp [hlate]) hassign hnew hassign'⟩

end DistributedVector
