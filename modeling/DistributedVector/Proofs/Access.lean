import DistributedVector.Proofs.Store
import DistributedVector.Store.Element

/-!
# Elements and ranges of a store

Reading elements, ranges and whole vectors gives what the plain arrays hold and changes none of
them; writing lays the elements over the plain array of the vector, wherever the numbers come from.

## Main definitions

* `Plain.Shows`, `Plain.Holds`, `Plain.Receives` — the host arrays that are needed are there

## Main results

* `Store.gather_ensures` — host data from wherever it comes
* `Store.write_ensures`, `Store.set_ensures` — writing
* `Store.onVector_read_ensures`, `Store.get_ensures`, `Store.getSlice_ensures` — reading
-/

namespace DistributedVector

/-- The rows of a view lie in the array that it is a view of. -/
def Plain.Shows (p : Plain) (view : HostView) : Prop :=
  ∃ a, p.cell view.cell = some a ∧ view.offset + view.size ≤ a.size

/-- The host array of a collection is there. -/
def Plain.Holds (p : Plain) : Collection → Prop
  | .array view => p.Shows view
  | _ => True

/-- The host array that a read is given is there. -/
def Plain.Receives (p : Plain) : Vector.ReadTarget → Prop
  | .array view => p.Shows view
  | _ => True

namespace Store

open DistributedVector.Vector

variable {V : Type} {A : Arithmetic V} {F : Fleet} {m : Memory} {S : Store} {p : Plain}
  {v : VectorId}

theorem Represents.valid (hp : Represents S m p) {view : HostView} (h : p.Shows view) :
    view.Valid m := by
  obtain ⟨a, ha, hroom⟩ := h
  exact ⟨a, hp.cell _ a ha, hroom⟩

/-- Reading a vector element by element gives its elements. -/
theorem elements_ensures (hS : S.Valid F m) : (elements v).Ensures (deviceContract A F.suits)
    (fun xs S' m' => S' = S ∧ m.Differs [] [] m' ∧
      ∃ d, S.vectors[v]? = some d ∧ xs = d.contents m)
    (Stopped F [] [] S m) S m := by
  simp only [elements, Task.ensures_bind, vector_ensures, onVector_ensures]
  refine ⟨fun d hv => ⟨fun d' hv' => ?_, fun _ => .self hS _ _ _⟩, fun _ => .self hS _ _ _⟩
  obtain rfl := Option.some_inj.mp (hv.symm.trans hv')
  refine (readAllEach_ensures (hS.vectors v d hv).1).imp ?_ fun e d' m' h =>
    .of_vector hS hv h.stopped
  intro xs d' m' hpost
  obtain ⟨rfl, hdiff, hxs⟩ := hpost
  exact ⟨put_self hv, hdiff, d', hv, hxs⟩

/-- What a host array shows. -/
theorem view_ensures {τ : Type} {s : τ} {view : HostView} {good : HostData → τ → Memory → Prop}
    {bad : Fault → τ → Memory → Prop} (hp : Represents S m p) (hview : p.Shows view)
    (hgood : ∀ data, p.view view = some data → good data s m) :
    (Vector.contents view : Task τ HostData).Ensures (deviceContract A F.suits) good bad s m := by
  refine contents_ensures (hp.valid hview) fun values hvalues => hgood _ ?_
  obtain ⟨a, ha, hroom⟩ := hview
  have : values = a.extract view.offset (view.offset + view.size) := by
    apply Array.toList_inj.mp
    rw [hvalues, HostView.values, hp.cell _ a ha, toList_part]
    rfl
  simp [Plain.view, ha, this]

theorem gather_ensures (hS : S.Valid F m) (hp : Represents S m p) {source : Collection}
    (hsource : p.Holds source) :
    (gather source).Ensures (deviceContract A F.suits)
      (fun data S' m' => S' = S ∧ m.Differs [] [] m' ∧ p.collect source = some data)
      (Stopped F [] [] S m) S m := by
  cases source with
  | array view => exact view_ensures hp hsource fun data hdata => ⟨rfl, .refl _ _ _, hdata⟩
  | list values => exact ⟨rfl, .refl _ _ _, rfl⟩
  | vector v =>
    simp only [gather, Task.ensures_bind, Task.ensures_pure, vector_ensures]
    refine (elements_ensures hS).imp_ok ?_
    intro xs S' m' hpost
    obtain ⟨rfl, hdiff, d, hv, rfl⟩ := hpost
    refine ⟨fun d' hv' => ⟨rfl, hdiff, ?_⟩, fun hnone => absurd hnone (by simp [hv])⟩
    obtain rfl := Option.some_inj.mp (hv.symm.trans hv')
    simp [Plain.collect, hp.getElem?_eq_some hv]

/-- An operation that lays elements over a vector. -/
theorem becomes_of_touched (hS : S.Valid F m) (hp : Represents S m p) {d d' : Descriptor}
    {m' : Memory} {xs : List Scalar} (hv : S.vectors[v]? = some d)
    (h : Descriptor.Touched d.buffers [] d m d' m') (hxs : d'.contents m' = xs) :
    Becomes F (some (p.put v d.type xs)) { S with vectors := S.vectors.setIfInBounds v d' } m' :=
  (Kept.of_touched hS hv h).becomes_put hS hp hv (List.Subset.refl _) fun d'' hd'' => by
    rw [← Option.some_inj.mp ((getElem?_put hv).symm.trans hd''), hxs]

/-- Host data written to a range of a vector, which is refused only for numbers that cannot be
converted. -/
theorem onVector_write_ensures (hS : S.Valid F m) (hp : Represents S m p) {offset count : Int}
    {data : HostData} {blocking : Bool} :
    (onVector v (Vector.write offset count data blocking)).Ensures (deviceContract A F.suits)
      (fun _ S' m' => Kept F (S.buffers v) [] S m S' m' ∧
        Becomes F (p.write v offset count data) S' m')
      (fun e S' m' => Kept F (S.buffers v) [] S m S' m' ∧
        (e.Rejection → ∃ t f, data.elements t count.toNat = .error f)) S m := by
  rw [onVector_ensures]
  refine ⟨fun d hv => ?_, fun _ => ⟨.refl hS _ _, fun hr => absurd hr ?_⟩⟩
  swap
  · simp [Fault.Rejection, Fault.kind, VectorFault.kind]
  rw [buffers_eq hv]
  have hvalid := (hS.vectors v d hv).1
  refine (Vector.write_ensures hvalid).imp ?_ fun e d' m' h =>
    ⟨Kept.of_touched hS hv h.1, fun hr => ⟨d.type, h.2 hr⟩⟩
  intro _ d' m' hpost
  obtain ⟨htouched, hcovers, values, hvalues, hsize, hcontents⟩ := hpost
  have hwrite : p.write v offset count data =
      some (p.put v d.type (overlay offset.toNat values.toList (d.contents m))) := by
    simp [Plain.write, hp.getElem?_eq_some hv, hvalid.length_contents, hcovers, hvalues, hsize,
      Except.toOption]
  rw [hwrite]
  exact ⟨.of_touched hS hv htouched, becomes_of_touched hS hp hv htouched hcontents⟩

theorem write_ensures (hS : S.Valid F m) (hp : Represents S m p) {offset count : Int}
    {source : Collection} {blocking : Bool} (hsource : p.Holds source) :
    (write v offset count source blocking).Ensures (deviceContract A F.suits)
      (fun _ S' m' => Becomes F (if count = 0 then some p else
        (p.collect source).bind (p.write v offset count)) S' m')
      (fun _ S' m' => S'.Valid F m') S m := by
  rw [write, Task.ensures_ite]
  refine ⟨fun hzero => ?_, fun hcount => ?_⟩
  · rw [if_pos hzero]
    exact (Kept.refl hS [] []).becomes_self hS hp
  · rw [if_neg hcount, Task.ensures_bind, onVector_ensures]
    simp only [Task.ensures_bind, checkRange, Task.ensures_get, ensures_orFault]
    refine ⟨fun d hv => ?_, fun _ => hS⟩
    rw [put_self hv]
    refine ⟨fun _ _ => ?_, fun _ _ => hS⟩
    refine (gather_ensures hS hp hsource).imp ?_ fun e S' m' h => h.valid hS
    intro data S' m' hpost
    obtain ⟨rfl, hdiff, hdata⟩ := hpost
    have hkept : Kept F [] [] S' m S' m' := .of_differs hS hdiff
    rw [hdata, Option.bind_some]
    exact (onVector_write_ensures (hkept.valid hS) (hp.of_kept hS hkept)).imp (fun _ _ _ h => h.2)
      fun _ _ _ h => h.1.valid (hkept.valid hS)

/-- Reading a range into an array of the host: the range, and the array afterwards. -/
theorem onVector_read_ensures (hS : S.Valid F m) (hp : Represents S m p) {offset count : Int}
    {goal : ReadTarget} {blocking : Bool} (hgoal : p.Receives goal) :
    (onVector v (Vector.read offset count goal blocking)).Ensures (deviceContract A F.suits)
      (fun view S' m' => S'.Valid F m' ∧ view.Valid m' ∧ ∃ q, p.read v offset count goal =
        some (⟨view.type, view.shape, (view.values m').toArray⟩, q) ∧ Represents S' m' q)
      (fun _ S' m' => S'.Valid F m') S m := by
  rw [onVector_ensures]
  refine ⟨fun d hv => ?_, fun _ => hS⟩
  have hvalid := (hS.vectors v d hv).1
  have hgoal' : goal.Valid m := by
    cases goal with
    | array view => exact hp.valid hgoal
    | _ => trivial
  refine (Vector.read_ensures hvalid hgoal').imp ?_ fun e d' m' h =>
    (Kept.of_touched hS hv h.1).valid hS
  intro view d' m' hpost
  obtain ⟨htouched, hcovers, hfilled⟩ := hpost
  have hkept := Kept.of_touched hS hv htouched
  have hcovers' : Covers (d.contents m).length offset count := hvalid.length_contents ▸ hcovers
  have hlookup := hp.getElem?_eq_some hv
  cases goal with
  | unsuitable =>
    -- an array that nothing can be stored into is refused
    obtain ⟨a, a', -, -, hfalse⟩ := hfilled
    exact hfalse.elim
  | fresh =>
    obtain ⟨hview, hvalues, htype, hshape⟩ := values_of_filled hfilled (length_part hcovers')
    refine ⟨hkept.valid hS, hview, p, ?_, hp.of_kept hS hkept⟩
    simp [Plain.read, hlookup, hcovers', htype, hshape, hvalues]
  | array view' =>
    obtain ⟨a, a', ha', hlist, rfl, -, ha⟩ := hfilled
    obtain ⟨a₀, ha₀, hroom⟩ := hgoal
    obtain rfl : a₀ = a := Option.some_inj.mp ((hp.cell _ a₀ ha₀).symm.trans ha)
    have ha'' : a' = (overlay view.offset (part offset count (d.contents m))
        a₀.toList).toArray := by
      rw [← hlist, Array.toArray_toList]
    have hsize : a'.size = a₀.size := by
      rw [ha'']
      simp
    refine ⟨hkept.valid hS, ⟨a', ha', by omega⟩,
      ⟨p.vectors, fun c => if c = view.cell then some a' else p.cell c⟩, ?_, ?_⟩
    · have hshown : view.values m' = (a'.toList.drop view.offset).take view.size := by
        rw [HostView.values, ha']
        rfl
      simp [Plain.read, Plain.view, hlookup, hcovers', ha₀, hshown, ha'']
    · -- vectors are as they were, and so are all arrays but the one that has been read into
      refine ⟨Array.ext_getElem? fun w => ?_, fun c b hc => ?_⟩
      · rw [hp.getElem?, Array.getElem?_map, hkept.map_eq hS fun _ _ _ _ => List.not_mem_nil]
      · by_cases h : c = view.cell
        · subst h
          simp only [if_pos] at hc
          rw [ha', hc]
        · simp only [if_neg h] at hc
          exact htouched.memory.cell_eq (hp.cell c b hc) fun hmem => h (List.mem_singleton.mp hmem)

/-- The position that an index stands for. -/
theorem position_eq {d : Descriptor} {index : Index} {i : Int} {j : Nat} (hi : index.toInt = .ok i)
    (hj : d.position i = .ok j) : Plain.position d.size index = some j ∧ j < d.size := by
  unfold Descriptor.position at hj
  generalize hk : (if i < 0 then i + (d.size : Int) else i) = k at hj
  simp only at hj
  split at hj
  next h =>
    cases hj
    refine ⟨?_, by omega⟩
    simp [Plain.position, hi, Except.toOption, hk, h]
  · cases hj

/-- Where an element is found: at the place of its position. -/
theorem locate_ensures (hS : S.Valid F m) {index : Index} :
    (locate v index).Ensures (deviceContract A F.suits)
      (fun e S' m' => S' = S ∧ m' = m ∧ ∃ d i before s after, S.vectors[v]? = some d ∧
        Plain.position d.size index = some i ∧ d.Owner i before s after ∧
        e = ⟨v, before.length, (i : Int) - total (before.map (·.length))⟩)
      (Stopped F [] [] S m) S m := by
  simp only [locate, Task.ensures_bind, vector_ensures, ensures_orFault, Task.ensures_pure]
  refine ⟨fun d hv => ⟨fun i hi => ⟨fun j hj => ?_, fun _ _ => .self hS _ _ _⟩,
    fun _ _ => .self hS _ _ _⟩, fun _ => .self hS _ _ _⟩
  obtain ⟨hposition, hlt⟩ := position_eq hi hj
  obtain ⟨before, s, after, ho⟩ := Descriptor.exists_owner hlt
  refine ⟨trivial, trivial, d, j, before, s, after, hv, hposition, ho, ?_⟩
  rw [ho.index, ho.start]

theorem get_ensures (hS : S.Valid F m) (hp : Represents S m p) {index : Index} :
    (get v index).Ensures (deviceContract A F.suits)
      (fun x S' m' => Becomes F (some p) S' m' ∧ ∃ t xs i, p.vectors[v]? = some (t, xs) ∧
        Plain.position xs.length index = some i ∧ xs[i]? = some x)
      (fun _ S' m' => S'.Valid F m') S m := by
  rw [get, Task.ensures_bind]
  refine (locate_ensures hS).imp ?_ fun _ _ _ h => h.valid hS
  intro e S' m' hpost
  obtain ⟨rfl, rfl, d, i, before, s, after, hv, hposition, ho, rfl⟩ := hpost
  have hvalid := (hS.vectors v d hv).1
  rw [readElement, onVector_ensures_of_some hv]
  refine (Vector.readElement_ensures hvalid ho).imp ?_ fun e d' m' h =>
    (Kept.of_touched hS hv h.1).valid hS
  intro x d' m'' hpost
  obtain ⟨rfl, hdiff, hx⟩ := hpost
  rw [put_self hv]
  refine ⟨(Kept.of_differs hS hdiff).becomes_self hS hp, d'.type, d'.contents m', i,
    hp.getElem?_eq_some hv, ?_, hx⟩
  rw [hvalid.length_contents, hposition]

/-- The data of one element. -/
theorem elementsFor_ensures {s : Store} {type : ElementType} {x : HostValue}
    {good : HostData → Store → Memory → Prop} {bad : Fault → Store → Memory → Prop}
    (hgood : ∀ values : List Scalar, Plain.single type x = some values → values.length ≤ 1 →
      good (.row type values.toArray) s m)
    (hbad : ∀ e, bad e s m) :
    (elementsFor type (.operand (.host x))).Ensures (deviceContract A F.suits) good bad s m := by
  cases x with
  | emptyList => exact hgood [] rfl (Nat.zero_le 1)
  | _ =>
    simp only [elementsFor, Task.ensures_bind, ensures_orFault, Task.ensures_pure]
    exact ⟨fun y hy => hgood [y] (by simp [Plain.single, hy, Except.toOption]) (Nat.le_refl 1),
      fun _ _ => hbad _⟩

theorem set_ensures (hS : S.Valid F m) (hp : Represents S m p) {index : Index} {x : HostValue} :
    (set v index (.operand (.host x))).Ensures (deviceContract A F.suits)
      (fun _ S' m' => ∃ t xs i values, p.vectors[v]? = some (t, xs) ∧
        Plain.position xs.length index = some i ∧ Plain.single t x = some values ∧
        Becomes F (some (p.put v t (overlay i values xs))) S' m')
      (fun _ S' m' => S'.Valid F m') S m := by
  rw [set, Task.ensures_bind]
  refine (locate_ensures hS).imp ?_ fun _ _ _ h => h.valid hS
  intro e S' m' hpost
  obtain ⟨rfl, rfl, d, i, before, s, after, hv, hposition, ho, rfl⟩ := hpost
  have hvalid := (hS.vectors v d hv).1
  simp only [writeElement, Task.ensures_bind, vector_ensures, onVector_ensures, Task.ensures_ite,
    Task.ensures_throw]
  refine ⟨fun d' hv' => ⟨fun _ => ?_, fun _ => hS⟩, fun _ => hS⟩
  obtain rfl := Option.some_inj.mp (hv.symm.trans hv')
  -- the value is converted before the element is written, so a failure up to here writes nothing
  refine elementsFor_ensures (fun values hvalues hone => ?_) fun _ => hS
  refine ⟨fun d' hv' => ?_, fun _ => hS⟩
  obtain rfl := Option.some_inj.mp (hv.symm.trans hv')
  have hupper := ho.upper
  refine (Vector.writeElements_ensures hvalid ho rfl ?_).imp ?_ fun e d' m' h =>
    (Kept.of_touched hS hv h.1).valid hS
  · simp only [HostData.row, List.size_toArray]
    omega
  intro _ d' m'' hpost
  obtain ⟨htouched, hcontents⟩ := hpost
  refine ⟨d.type, d.contents m', i, values, hp.getElem?_eq_some hv, ?_, hvalues,
    becomes_of_touched hS hp hv htouched hcontents⟩
  rw [hvalid.length_contents, hposition]

/-- The bounds of a slice that a vector accepts. -/
theorem range_eq {d : Descriptor} {s : Slice} {b : SliceBounds} (h : d.range s = .ok b) :
    Plain.range d.size s = some b := by
  unfold Descriptor.range at h
  split at h
  · cases h
  next b' hb =>
    split at h
    next hstep =>
      cases h
      simp [Plain.range, hb, hstep]
    · cases h

theorem getSlice_ensures (hS : S.Valid F m) (hp : Represents S m p) {s : Slice} :
    (getSlice v s).Ensures (deviceContract A F.suits)
      (fun data S' m' => Becomes F (some p) S' m' ∧ ∃ t xs b, p.vectors[v]? = some (t, xs) ∧
        Plain.range xs.length s = some b ∧
        data = .row t (part b.start (max (b.stop - b.start) 0) xs).toArray)
      (fun _ S' m' => S'.Valid F m') S m := by
  simp only [getSlice, Task.ensures_bind, vector_ensures, ensures_orFault, onVector_ensures]
  refine ⟨fun d hv => ⟨fun b hb => ⟨fun d' hv' => ?_, fun _ => hS⟩, fun _ _ => hS⟩, fun _ => hS⟩
  obtain rfl := Option.some_inj.mp (hv.symm.trans hv')
  have hvalid := (hS.vectors v d hv).1
  refine (Vector.readRange_ensures hvalid).imp ?_ fun e d' m' h =>
    (Kept.of_touched hS hv h.1).valid hS
  rintro ⟨type, shape, values⟩ d' m' ⟨htouched, hcovers, htype, hshape, hvalues⟩
  refine ⟨(Kept.of_touched hS hv htouched).becomes_self hS hp, d.type, d.contents m, b,
    hp.getElem?_eq_some hv, ?_, ?_⟩
  · rw [hvalid.length_contents, range_eq hb]
  · simp only at htype hshape hvalues
    rw [HostData.row, ← hvalues, Array.toArray_toList, htype, hshape, ← Array.length_toList,
      hvalues, length_part (hvalid.length_contents ▸ hcovers)]

end Store

end DistributedVector
