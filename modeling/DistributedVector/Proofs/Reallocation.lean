import DistributedVector.Proofs.Assignment
import DistributedVector.Store.Resize
import Mathlib.Logic.Equiv.Basic

/-!
# New vectors in a store

A vector that has just been made shares no buffer with the vectors of the store, so that it can be
added to them or take the place of one, and the others stay the plain arrays that they are. Taking
the place of a vector is what reallocation is, and exchanging two vectors moves no elements at all.

## Main definitions

* `Store.Made` — a new vector that is not in the store yet

## Main results

* `Store.make_ensures`, `Store.construct_ensures` — new vectors
* `Store.swap_ensures`, `Store.resizeLike_ensures`, `Store.resizeTo_ensures` — vectors that take the
  place of others
-/

namespace DistributedVector

namespace Plain

/-- The host arrays that a vector is to be made from are there. -/
def Offers (p : Plain) (x : Extent) (host : Option Collection) : Prop :=
  (∀ source, x = .data source → p.Holds source) ∧ ∀ source, host = some source → p.Holds source

variable {E : Evaluation} {p : Plain} {v w : VectorId} {t : ElementType} {xs zs : List Scalar}

/-- A number of elements needs no host array. -/
theorem offers_count (p : Plain) (n : Int) : p.Offers (.count n) none := by
  constructor <;> intro source h <;> cases h

theorem getElem?_put_self (hv : v < p.vectors.size) : (p.put v t xs).vectors[v]? = some (t, xs) :=
  Array.getElem?_setIfInBounds_self_of_lt hv

theorem getElem?_put_of_ne (h : v ≠ w) : (p.put v t xs).vectors[w]? = p.vectors[w]? :=
  Array.getElem?_setIfInBounds_ne h

@[simp] theorem put_put : (p.put v t xs).put v t zs = p.put v t zs := by
  simp [put, Array.setIfInBounds_setIfInBounds]

/-- Elements that are about to be lost do not matter. -/
theorem take_put (hne : v ≠ w) (hv : p.vectors[v]? = some (t, zs)) :
    (p.put v t xs).take E v w = p.take E v w := by
  obtain ⟨hlt, -⟩ := Array.getElem?_eq_some_iff.mp hv
  have hresults : ∀ n, E.results t n ((p.put v t xs).vectors[·]?) (.vector w) =
      E.results t n (p.vectors[·]?) (.vector w) := fun n => Evaluation.results_congr fun u hu => by
    cases List.mem_singleton.mp hu
    exact getElem?_put_of_ne hne
  simp only [take, if_neg hne, getElem?_put_self hlt, getElem?_put_of_ne hne, hv, hresults, put_put,
    Option.bind_eq_bind, Option.bind_some]

end Plain

/-- Exchanging two entries of an array. -/
theorem getElem?_exchange {α : Type} {xs : Array α} {v w : Nat} {a b : α} (hv : xs[v]? = some a)
    (hw : xs[w]? = some b) (i : Nat) :
    ((xs.setIfInBounds v b).setIfInBounds w a)[i]? = xs[Equiv.swap v w i]? := by
  obtain ⟨hltv, -⟩ := Array.getElem?_eq_some_iff.mp hv
  obtain ⟨hltw, -⟩ := Array.getElem?_eq_some_iff.mp hw
  by_cases hi : i = w
  · subst hi
    rw [Equiv.swap_apply_right, hv]
    exact Array.getElem?_setIfInBounds_self_of_lt (by rwa [Array.size_setIfInBounds])
  rw [Array.getElem?_setIfInBounds_ne (Ne.symm hi)]
  by_cases hi' : i = v
  · subst hi'
    rw [Equiv.swap_apply_left, hw]
    exact Array.getElem?_setIfInBounds_self_of_lt hltv
  · rw [Array.getElem?_setIfInBounds_ne (Ne.symm hi'), Equiv.swap_apply_of_ne_of_ne hi' hi]

namespace Store

open DistributedVector.Vector

variable {V : Type} {A : Arithmetic V} {F : Fleet} {m m' : Memory} {S S' : Store} {p : Plain}
  {v w : VectorId} {fresh : Descriptor}

/-- A vector with new buffers is added, or takes the place of another one. -/
theorem Kept.becomes_of_new (h : Kept F [] [] S m S' m') (hS : S.Valid F m) (hp : Represents S m p)
    (hvalid : fresh.Valid m') (huse : F.inUse fresh.devices)
    (hnew : ∀ b ∈ fresh.buffers, m.buffer b = none) {S'' : Store} {q : Plain} {u : VectorId}
    (hsessions : S''.sessions = S'.sessions) (hcell : q.cell = p.cell)
    (hu : S''.vectors[u]? = some fresh) (hothers : ∀ w, w ≠ u → S''.vectors[w]? = S'.vectors[w]?)
    (hqu : q.vectors[u]? = some (fresh.type, fresh.contents m'))
    (hqothers : ∀ w, w ≠ u → q.vectors[w]? = p.vectors[w]?) : Becomes F (some q) S'' m' := by
  have hS' := h.valid hS
  have hp' := hp.of_kept hS h
  -- a vector of the store has buffers that were there before
  have hapart : ∀ (w : VectorId) (e : Descriptor), S'.vectors[w]? = some e → ∀ b ∈ fresh.buffers,
      b ∉ e.buffers := by
    intro w e he b hb hmem
    obtain ⟨e₀, he₀, hsame⟩ := h.exists_before he
    rw [Descriptor.buffers_of_forget hsame] at hmem
    exact (hS.vectors w e₀ he₀).1.notMem_of_new (hnew b hb) hmem
  refine ⟨⟨fun i d hd => ?_, fun i j d e hd he hne b hb => ?_, fun k s hs => ?_⟩, q, rfl,
    Array.ext_getElem? fun i => ?_, fun c a hc => hp'.cell c a (hcell ▸ hc)⟩
  · by_cases hi : i = u
    · subst hi
      obtain rfl := Option.some_inj.mp (hu.symm.trans hd)
      exact ⟨hvalid, huse⟩
    · exact hS'.vectors i d (hothers i hi ▸ hd)
  · by_cases hi : i = u
    · subst hi
      obtain rfl := Option.some_inj.mp (hu.symm.trans hd)
      exact hapart j e (hothers j (Ne.symm hne) ▸ he) b hb
    · rw [hothers i hi] at hd
      by_cases hj : j = u
      · subst hj
        obtain rfl := Option.some_inj.mp (hu.symm.trans he)
        exact fun hmem => hapart i d hd b hmem hb
      · rw [hothers j hj] at he
        exact hS'.apart i j d e hd he hne b hb
  · exact hS'.sessions k s (hsessions ▸ hs)
  · rw [Array.getElem?_map]
    by_cases hi : i = u
    · subst hi
      rw [hqu, hu, Option.map_some]
    · rw [hqothers i hi, hothers i hi, hp'.getElem?]

/-- A vector with new buffers takes the place of another one. -/
theorem Kept.becomes_replace (h : Kept F [] [] S m S' m') (hS : S.Valid F m) (hp : Represents S m p)
    (hvalid : fresh.Valid m') (huse : F.inUse fresh.devices)
    (hnew : ∀ b ∈ fresh.buffers, m.buffer b = none) {d : Descriptor} (hv : S.vectors[v]? = some d) :
    Becomes F (some (p.put v fresh.type (fresh.contents m')))
      { S' with vectors := S'.vectors.setIfInBounds v fresh } m' := by
  obtain ⟨d', hv', -⟩ := h.exists_after hv
  refine h.becomes_of_new hS hp hvalid huse hnew (u := v) rfl rfl (getElem?_put hv')
    (fun w hw => Array.getElem?_setIfInBounds_ne (Ne.symm hw)) ?_
    fun w hw => Plain.getElem?_put_of_ne (Ne.symm hw)
  exact Plain.getElem?_put_self (Array.getElem?_eq_some_iff.mp (hp.getElem?_eq_some hv)).1

/-- A vector with new buffers is added. -/
theorem Kept.becomes_push (h : Kept F [] [] S m S' m') (hS : S.Valid F m) (hp : Represents S m p)
    (hvalid : fresh.Valid m') (huse : F.inUse fresh.devices)
    (hnew : ∀ b ∈ fresh.buffers, m.buffer b = none) :
    Becomes F (some { p with vectors := p.vectors.push (fresh.type, fresh.contents m') })
      { S' with vectors := S'.vectors.push fresh } m' := by
  have hsize : p.vectors.size = S'.vectors.size := by rw [hp.vectors, Array.size_map, h.size]
  refine h.becomes_of_new hS hp hvalid huse hnew (u := S'.vectors.size) rfl rfl
    Array.getElem?_push_size (fun w hw => ?_) ?_ fun w hw => ?_
  · rw [Array.getElem?_push, if_neg hw]
  · rw [← hsize]
    exact Array.getElem?_push_size
  · rw [Array.getElem?_push, if_neg (hsize ▸ hw)]

/-- The number of elements and the host data of a blueprint. -/
theorem resolveExtent_ensures (hS : S.Valid F m) (hp : Represents S m p) {b : Blueprint}
    (hoffers : p.Offers b.extent b.host) :
    (resolveExtent b).Ensures (deviceContract A F.suits)
      (fun r S' m' => S' = S ∧ m.Differs [] [] m' ∧ p.extent b.extent b.host = some r)
      (fun _ S' m' => Kept F [] [] S m S' m') S m := by
  unfold resolveExtent
  split
  next source hsource =>
    -- a collection in place of a number is the host data as well as the extent
    rw [Task.ensures_bind]
    refine (gather_ensures hS hp (hoffers.1 source hsource)).imp ?_ fun _ _ _ h => h.1
    intro data S' m' hpost
    obtain ⟨rfl, hdiff, hdata⟩ := hpost
    simp only [Task.ensures_bind, Task.ensures_ite, Task.ensures_throw, Task.ensures_pure]
    exact ⟨fun _ => ⟨trivial, hdiff, by simp [Plain.extent, hsource, hdata]⟩,
      fun _ => .of_differs hS hdiff⟩
  next n hn =>
    have hstop : Kept F [] [] S m S m := .refl hS _ _
    rw [Task.ensures_ite]
    refine ⟨fun _ => ?_, fun _ => ?_⟩
    · rw [Task.ensures_bind, Task.ensures_throw]
      exact hstop
    split
    next hhost => exact ⟨rfl, .refl _ _ _, by simp [Plain.extent, hn, hhost]⟩
    next source hhost =>
      simp only [Task.ensures_bind, Task.ensures_pure]
      refine (gather_ensures hS hp (hoffers.2 source hhost)).imp ?_ fun _ _ _ h => h.1
      intro data S' m' hpost
      obtain ⟨rfl, hdiff, hdata⟩ := hpost
      exact ⟨rfl, hdiff, by simp [Plain.extent, hn, hhost, hdata]⟩

/-- A vector that has just been made for a blueprint and is not in the store yet; nothing else has
changed. -/
structure Made (F : Fleet) (p : Plain) (S : Store) (m : Memory) (b : Blueprint) (d : Descriptor)
    (S' : Store) (m' : Memory) : Prop where
  kept : Kept F [] [] S m S' m'
  vectors : S'.vectors = S.vectors
  devices : d.devices = b.devices
  valid : d.Valid m'
  new : ∀ x ∈ d.buffers, m.buffer x = none
  elements : ∃ n host, p.extent b.extent b.host = some (n, host) ∧ (d.size : Int) = n ∧
    (do (← b.type.resolve host).supported : Except ExprFault ElementType) = .ok d.type ∧
    Plain.initial d.type n host = some (d.contents m')

/-- A new vector holds zeros or the host data. -/
theorem initial_of_fresh {r : VectorRequest} {d : Descriptor} (h : Fresh m r d m') :
    Plain.initial d.type r.size r.host = some (d.contents m') := by
  have hcontents := h.contents
  split at hcontents
  next hhost => rw [hhost, Plain.initial, hcontents]
  next data hhost =>
    obtain ⟨values, hvalues, hcontents⟩ := hcontents
    simp [hhost, Plain.initial, hvalues, hcontents, Except.toOption]

theorem make_ensures (hS : S.Valid F m) (hp : Represents S m p) {b : Blueprint}
    (hdevices : F.inUse b.devices) (hoffers : p.Offers b.extent b.host) :
    (make b).Ensures (deviceContract A F.suits) (Made F p S m b)
      (fun _ S' m' => Kept F [] [] S m S' m') S m := by
  have hstop : Kept F [] [] S m S m := .refl hS _ _
  rw [make, makeBy, Task.ensures_ite]
  refine ⟨fun _ => ?_, fun _ => ?_⟩
  · rw [Task.ensures_bind, Task.ensures_throw]
    exact hstop
  rw [Task.ensures_bind]
  refine (resolveExtent_ensures hS hp hoffers).imp_ok ?_
  rintro ⟨n, host⟩ S₁ m₁ ⟨rfl, hdiff, hextent⟩
  simp only [onSession_ensures]
  have hkept : Kept F [] [] S₁ m S₁ m₁ := .of_differs hS hdiff
  refine ⟨fun s hs => ?_, fun _ => hkept⟩
  -- partitioning may have changed the session, and no vector
  have hsession : ∀ {s' : Session} {m'}, Session.Kept F m₁ s' m' →
      Kept F [] [] S₁ m { S₁ with sessions := S₁.sessions.setIfInBounds b.session s' } m' :=
    fun h => .of_session hS h.1 (hdiff.trans_same h.2)
  refine (create_ensures Session.partition_ensures (hS.sessions _ s hs) hdevices).imp ?_
    fun _ _ _ h => hsession h
  intro d s' m' hpost
  obtain ⟨hsound, hfresh⟩ := hpost
  exact ⟨hsession hsound, rfl, hfresh.devices, hfresh.valid,
    fun x hx => hdiff.buffer_eq_none (hfresh.new x hx),
    n, host, hextent, hfresh.size, hfresh.type, initial_of_fresh hfresh⟩

theorem construct_ensures (hS : S.Valid F m) (hp : Represents S m p) {b : Blueprint}
    (hdevices : F.inUse b.devices) (hoffers : p.Offers b.extent b.host) :
    (construct b).Ensures (deviceContract A F.suits)
      (fun v S' m' => ∃ q, p.construct b = some (.vector v, q) ∧ S'.Valid F m' ∧ Represents S' m' q)
      (fun _ S' m' => S'.Valid F m') S m := by
  simp only [construct, constructBy, Task.ensures_bind, Task.ensures_get, Task.ensures_modify,
    Task.ensures_pure]
  refine (make_ensures hS hp hdevices hoffers).imp ?_ fun _ _ _ h => h.valid hS
  intro d S' m' hmade
  obtain ⟨n, host, hextent, -, htype, hinitial⟩ := hmade.elements
  obtain ⟨hvalid, q, hq, hrep⟩ := hmade.kept.becomes_push hS hp hmade.valid
    (hmade.devices ▸ hdevices) hmade.new
  refine ⟨q, ?_, hvalid, hrep⟩
  have hsize : p.vectors.size = S'.vectors.size := by rw [hp.vectors, Array.size_map, hmade.vectors]
  simp only [Plain.construct, hextent, htype, hinitial, Except.toOption, Option.bind_eq_bind,
    Option.bind_some, hsize]
  exact congrArg (fun q => some (Answer.vector S'.vectors.size, q)) (Option.some_inj.mp hq)

/-- Exchanging two vectors exchanges two plain arrays. -/
theorem swap_ensures (hS : S.Valid F m) (hp : Represents S m p) :
    (swap v w).Ensures (deviceContract A F.suits)
      (fun _ S' m' => Becomes F (p.swap v w) S' m') (fun _ S' m' => S'.Valid F m') S m := by
  simp only [swap, setVector, Task.ensures_bind, vector_ensures, Task.ensures_modify]
  refine ⟨fun a hv => ⟨fun b hw => ?_, fun _ => hS⟩, fun _ => hS⟩
  have hlookup := getElem?_exchange hv hw
  have hlookup' := getElem?_exchange (hp.getElem?_eq_some hv) (hp.getElem?_eq_some hw)
  refine ⟨⟨fun i d hd => hS.vectors _ d (hlookup i ▸ hd), fun i j d e hd he hne => ?_, hS.sessions⟩,
    (p.put v b.type (b.contents m)).put w a.type (a.contents m),
    by simp [Plain.swap, hp.getElem?_eq_some hv, hp.getElem?_eq_some hw],
    Array.ext_getElem? fun i => ?_, hp.cell⟩
  · exact hS.apart _ _ d e (hlookup i ▸ hd) (hlookup j ▸ he) ((Equiv.swap v w).injective.ne hne)
  · rw [Array.getElem?_map, hlookup i, ← hp.getElem?]
    exact hlookup' i

/-- A vector that is reallocated like another one takes its elements. -/
theorem resizeLike_ensures (hS : S.Valid F m) (hp : Represents S m p) {access : Access} :
    (resizeLike v w access).Ensures (deviceContract A F.suits)
      (fun _ S' m' => Becomes F (p.take A.byKernel v w) S' m')
      (fun _ S' m' => S'.Valid F m') S m := by
  rw [resizeLike, Task.ensures_ite]
  refine ⟨fun hsame => ?_, fun hne => ?_⟩
  · rw [Plain.take, if_pos hsame]
    exact (Kept.refl hS [] []).becomes_self hS hp
  simp only [setVector, Task.ensures_bind, vector_ensures, Task.ensures_modify]
  refine ⟨fun d hv => ⟨fun e hw => ?_, fun _ => hS⟩, fun _ => hS⟩
  refine (make_ensures hS hp (hS.vectors w e hw).2 (p.offers_count e.size)).imp ?_
    fun _ _ _ h => h.valid hS
  intro fresh S' m' hmade
  obtain ⟨n, host, -, -, htype, -⟩ := hmade.elements
  have htype : d.type = fresh.type := Except.ok.inj htype
  have hlookup := hp.getElem?_eq_some hv
  rw [htype] at hlookup
  obtain ⟨hvalid, q, hq, hrep⟩ := hmade.kept.becomes_replace hS hp hmade.valid
    (hmade.devices ▸ (hS.vectors w e hw).2) hmade.new hv
  cases hq
  refine (copyFrom_ensures hvalid hrep).imp ?_ fun _ _ _ h => h.valid hvalid
  intro _ S'' m'' hpost
  obtain ⟨-, hbecomes⟩ := hpost
  rwa [Plain.take_put hne hlookup] at hbecomes

/-- A vector that is reallocated holds zeros or host data. A failure changes nothing but events. -/
theorem resizeTo_ensures (hS : S.Valid F m) (hp : Represents S m p) {devices : List DeviceId}
    {extent : Option Extent} {host : Option Collection} {access : Access}
    (hdevices : F.inUse devices) (hoffers : ∀ x, extent = some x → p.Offers x host) :
    (resizeTo v devices extent host access).Ensures (deviceContract A F.suits)
      (fun _ S' m' => Becomes F (p.resizeTo v extent host) S' m')
      (fun _ S' m' => Kept F [] [] S m S' m') S m := by
  have hstop : Kept F [] [] S m S m := .refl hS [] []
  unfold resizeTo resizeToBy
  split
  · exact hstop
  next x =>
    simp only [setVector, Task.ensures_bind, vector_ensures, Task.ensures_modify]
    refine ⟨fun d hv => ?_, fun _ => hstop⟩
    refine (make_ensures hS hp hdevices (hoffers x rfl)).imp_ok ?_
    intro fresh S' m' hmade
    obtain ⟨n, data, hextent, -, htype, hinitial⟩ := hmade.elements
    have htype : d.type = fresh.type := Except.ok.inj htype
    have hreplace := hmade.kept.becomes_replace hS hp hmade.valid (hmade.devices ▸ hdevices)
      hmade.new hv
    have hextent : p.extent x host = some (n, data) := hextent
    simpa [Plain.resizeTo, hp.getElem?_eq_some hv, hextent, htype, hinitial] using hreplace

end Store

end DistributedVector
