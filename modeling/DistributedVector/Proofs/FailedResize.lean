import DistributedVector.Proofs.Interruption
import DistributedVector.Proofs.Splitting

/-!
# Reallocations that fail

A vector that is reallocated for a number of elements, for host data, or with its first elements
kept is replaced last, when the new one is complete. Whatever fails before that, the vector is what
it was: a new vector has been begun beside it, and its own buffers have been read at most.

A vector that is reallocated like another one is replaced first, by a vector of zeros, and takes its
elements then. It survives a failure only as long as the new vector has not been made. If the
assignment fails, the new vector stays in its place, with the new elements up to some boundary.

## Main definitions

* `Store.Unmoved` — the vectors are the same, with their events
* `Descriptor.like` — the request for a vector that is laid out like another one
* `Store.Usurped` — what a reallocation leaves whose assignment has failed

## Main results

* `Store.makeBy_within` — making a vector leaves no trace in the others
* `Reachable.resize_unchanged_of_error` — reallocations that replace the vector last
* `Reachable.resizeLike_usurped_of_error` — reallocation like another vector
-/

namespace DistributedVector

/-! ## Making a vector -/

namespace Vector

open DistributedVector.Task

/-- An element that is read by itself leaves the slots as they are. -/
theorem readElement_leaves (index : Nat) (position : Int) :
    (readElement index position).Within Eq := by
  have hshard : (shard index).Within Eq := by
    refine within_get.bind fun d => ?_
    split
    · exact within_pure _
    · exact within_throw _
  exact hshard.bind fun _ => within_get.bind fun _ => (newArray_within _ _).bind fun _ =>
    (within_issue _).bind fun _ => (within_issue _).bind fun _ => (contents_within _).bind fun _ =>
      within_pure _

end Vector

namespace Store

open DistributedVector.Task

variable {S S' : Store} {m m' : Memory} {v w : VectorId}

/-- The vectors are the same, with their events. -/
def Unmoved (S S' : Store) : Prop := S'.vectors = S.vectors

instance : IsPreorder Store Unmoved where
  refl _ := rfl
  trans _ _ _ h h' := Eq.trans h' h

theorem readEach_leaves (d : Descriptor) (positions : List Nat) :
    (readEach d positions).Within Eq := by
  induction positions with
  | nil => exact within_pure _
  | cons i rest ih =>
    exact (Vector.readElement_leaves _ _).bind fun _ => ih.bind fun _ => within_pure _

theorem elements_unmoved (v : VectorId) : (elements v).Within Unmoved := by
  -- the vector that is put back is the one that was taken out
  refine (vector_within v).bind fun d S => ?_
  rw [onVector_ensures]
  refine ⟨fun d hv => ?_, fun _ => refl_of Unmoved S⟩
  refine (readEach_leaves _ _ d).imp ?_ ?_ <;> rintro _ _ _ rfl <;> exact setIfInBounds_eq_self hv

theorem gather_unmoved (source : Collection) : (gather source).Within Unmoved := by
  cases source with
  | array view => exact Vector.contents_within view
  | list values => exact within_pure _
  | vector v =>
    exact (elements_unmoved v).bind fun _ => (vector_within v).bind fun _ => within_pure _

theorem resolveExtent_unmoved (b : Blueprint) : (resolveExtent b).Within Unmoved := by
  unfold resolveExtent
  split
  · exact (gather_unmoved _).bind fun _ => .ite (within_pure _) (within_throw _)
  · refine .ite (within_throw _) ?_
    split
    · exact within_pure _
    · exact (gather_unmoved _).bind fun _ => within_pure _

/-- What happens in a session is not seen in the vectors. -/
theorem onSession_unmoved {α : Type} (k : SessionId) (t : Task Session α) :
    (onSession k t).Within Unmoved := by
  intro S
  rw [onSession_ensures]
  exact ⟨fun s _ => (ensures_true t).imp (fun _ _ _ _ => rfl) fun _ _ _ _ => rfl, fun _ => rfl⟩

/-- Making a vector leaves no trace in the others, whether it succeeds or not. -/
theorem makeBy_within (split : Splitting) (b : Blueprint) : (makeBy split b).Within Unmoved := by
  rw [makeBy]
  exact .ite (within_throw _) ((resolveExtent_unmoved b).bind fun _ => onSession_unmoved _ _)

/-- A vector is replaced by one of another size only when the new one is complete. -/
theorem resizeTo_unmoved (devices : List DeviceId) (extent : Option Extent)
    (host : Option Collection)
    (access : Access) : (resizeTo v devices extent host access).Ensures .any (fun _ _ _ => True)
      (fun _ S' _ => S.Unmoved S') S () := by
  unfold resizeTo resizeToBy
  split
  · exact refl_of Unmoved S
  · simp only [setVector, ensures_bind, vector_ensures, ensures_modify]
    exact ⟨fun d _ => (makeBy_within _ _ S).imp (fun _ _ _ _ => trivial) fun _ _ _ h => h,
      fun _ => refl_of Unmoved S⟩

/-- What an operation leaves that changes nothing but events and host arrays. -/
theorem Kept.untouched {F : Fleet} (h : Kept F [] [] S m S' m') :
    S'.outline = S.outline ∧ ∀ b buf, m.buffer b = some buf → m'.buffer b = some buf := by
  refine ⟨Array.ext_getElem? fun w => ?_, fun b buf hb => h.memory.buffer_eq hb List.not_mem_nil⟩
  rw [outline, outline, Array.getElem?_map, Array.getElem?_map]
  exact h.vectors w

end Store

/-! ## Making a vector like another one -/

namespace Vector

/-- A new vector is as it has been asked for. -/
structure AsAsked (r : VectorRequest) (d : Descriptor) : Prop where
  session : d.session = r.session
  access : d.access = r.access
  boundaries : ∀ part, r.partition = some part → d.boundaries.map Int.ofNat = part

theorem AsAsked.of_forget {r : VectorRequest} {d d' : Descriptor} (h : AsAsked r d)
    (hsame : d'.forget = d.forget) : AsAsked r d' :=
  ⟨(Descriptor.session_of_forget hsame).trans h.session,
    (Descriptor.access_of_forget hsame).trans h.access,
    Descriptor.boundaries_of_forget hsame ▸ h.boundaries⟩

theorem create_asAsked {owner : SessionId} {r : VectorRequest} {s : Session} :
    (create (Session.partition owner) r).Ensures .any (fun d _ _ => AsAsked r d)
      (fun _ _ _ => True) s () := by
  simp only [create, Task.ensures_bind, ensures_orFault]
  refine ⟨fun _ _ => ⟨fun type _ => ?_, fun _ _ => trivial⟩, fun _ _ => trivial⟩
  refine (boundariesFor_accepted owner).imp_ok fun part _ _ haccepted => ?_
  obtain ⟨hvalid, hgiven, -⟩ := haccepted
  refine allocate_lengths.imp_ok fun shards _ _ hpost => ?_
  obtain ⟨-, hlengths⟩ := hpost
  obtain ⟨hlength, -⟩ := lengthsOf_of_validate hvalid
  -- the boundaries can be read off the lengths of the shards
  have hsizes : shards.map (·.length) = lengthsOf part := by
    have := congrArg (List.map Prod.snd) hlengths
    rwa [List.map_map, List.map_snd_zip (by omega)] at this
  have hasked : AsAsked r ⟨r.session, type, r.access, shards⟩ := by
    refine ⟨rfl, rfl, fun given h => ?_⟩
    rw [← hgiven given h, ← boundariesOf_of_validate hvalid, ← hsizes]
    rfl
  split
  · exact hasked
  · simp only [Task.ensures_bind, Task.ensures_runOn]
    exact (write_within _ _ _ _ _).imp (fun _ _ _ h => hasked.of_forget h) fun _ _ _ _ => trivial

end Vector

namespace Plain

variable {E : Evaluation} {p q : Plain} {v w : VectorId} {t t' : ElementType}
  {xs zs ys values : List Scalar}

theorem put_injective (hv : p.vectors[v]? = some (t, xs)) (h : p.put v t ys = p.put v t zs) :
    ys = zs := by
  have hlt := (Array.getElem?_eq_some_iff.mp hv).1
  have hentry := congrArg (fun q : Plain => q.vectors[v]?) h
  simp only [getElem?_put_self hlt, Option.some_inj, Prod.mk.injEq, true_and] at hentry
  exact hentry

/-- The elements that a vector takes from another one are those of the other one, converted if need
be. -/
theorem take_eq_map (hne : v ≠ w) (hv : p.vectors[v]? = some (t, xs))
    (hw : p.vectors[w]? = some (t', ys)) : p.take E v w = (if t' = t then some ys
      else E.results t ys.length (p.vectors[·]?) (.vector w)).map (p.put v t) := by
  simp only [take, if_neg hne, hv, hw, Option.bind_eq_bind, Option.bind_some]
  split
  · rfl
  · exact Option.map_eq_bind.symm

/-- What a vector takes from another one depends on the other one and on its own type. -/
theorem take_congr (hne : v ≠ w) (hp : p.vectors[v]? = some (t, xs))
    (hq : q.vectors[v]? = some (t, zs)) (hw : p.vectors[w]? = some (t', ys))
    (hother : q.vectors[w]? = some (t', ys))
    (h : p.take E v w = some (p.put v t values)) : q.take E v w = some (q.put v t values) := by
  have hresults : E.results t ys.length (q.vectors[·]?) (.vector w) =
      E.results t ys.length (p.vectors[·]?) (.vector w) := Evaluation.results_congr fun u hu => by
    cases List.mem_singleton.mp hu
    exact hother.trans hw.symm
  rw [take_eq_map hne hp hw] at h
  obtain ⟨values', hvalues, hput⟩ := Option.map_eq_some_iff.mp h
  rw [take_eq_map hne hq hother, hresults, hvalues, put_injective hp hput]
  rfl

end Plain

/-- The request for a vector of the type of `d` that is laid out like `other`. -/
def Descriptor.like (d other : Descriptor) (access : Access) : Blueprint :=
  ⟨other.devices, .count other.size, none, .exact d.type, access, d.session,
    some (other.boundaries.map Int.ofNat)⟩

namespace Store

variable {S S' S₁ : Store} {v w : VectorId} {d other fresh : Descriptor} {access : Access}

/-- A vector that is made like another one is laid out like it. -/
theorem make_like : (make (d.like other access)).Ensures .any
    (fun fresh _ _ => fresh.session = d.session ∧ fresh.access = access ∧
      fresh.boundaries = other.boundaries) (fun _ _ _ => True) S () := by
  simp only [make, makeBy, Task.ensures_bind, Task.ensures_ite, Task.ensures_throw]
  refine ⟨fun _ => trivial, fun _ => (Task.ensures_true _).imp (fun _ _ _ _ => ?_) fun _ _ _ h => h⟩
  rw [onSession_ensures]
  refine ⟨fun s _ => ?_, fun _ => trivial⟩
  refine Vector.create_asAsked.imp_ok fun fresh _ _ h => ⟨h.session, h.access, ?_⟩
  exact List.map_injective_iff.mpr (fun _ _ => Int.ofNat.inj) (h.boundaries _ rfl)

/-- The vector `new` has taken the place of `d` under the number `v`. It is laid out like `other`,
and the buffers of `d` are what they were, although no vector has them any more. -/
structure Usurped (S : Store) (m : Memory) (v : VectorId) (d other : Descriptor) (access : Access)
    (new : Descriptor) (S' : Store) (m' : Memory) : Prop where
  vectors : S'.vectors = S.vectors.setIfInBounds v new
  devices : new.devices = other.devices
  boundaries : new.boundaries = other.boundaries
  type : new.type = d.type
  access : new.access = access
  session : new.session = d.session
  new : ∀ b ∈ new.buffers, m.buffer b = none
  old : ∀ b buf, m.buffer b = some buf → m'.buffer b = some buf

/-- A vector that has been made like another one and is changed where it stands. -/
theorem Made.usurped {F : Fleet} {p : Plain} {m m₁ m' : Memory} {new : Descriptor}
    (h : Made F p S m (d.like other access) fresh S₁ m₁)
    (hlike : fresh.session = d.session ∧ fresh.access = access ∧
      fresh.boundaries = other.boundaries)
    (hsame : new.forget = fresh.forget) (hvectors : S'.vectors = S.vectors.setIfInBounds v new)
    (hdiff : m₁.Differs fresh.buffers [] m') : S.Usurped m v d other access new S' m' := by
  obtain ⟨hsession, haccess, hboundaries⟩ := hlike
  obtain ⟨n, host, -, -, htype, -⟩ := h.elements
  have htype : d.type = fresh.type := Except.ok.inj htype
  refine ⟨hvectors, (Descriptor.devices_of_forget hsame).trans h.devices,
    (Descriptor.boundaries_of_forget hsame).trans hboundaries,
    (Descriptor.type_of_forget hsame).trans htype.symm,
    (Descriptor.access_of_forget hsame).trans haccess,
    (Descriptor.session_of_forget hsame).trans hsession, ?_, fun b buf hb => ?_⟩
  · rw [Descriptor.buffers_of_forget hsame]
    exact h.new
  · have hfresh : b ∉ fresh.buffers := fun hmem => by cases hb.symm.trans (h.new b hmem)
    exact hdiff.buffer_eq (h.kept.untouched.2 b buf hb) hfresh

/-- What holds the first of some elements before a shard, and zeros from there on. -/
theorem contents_of_cutShort {F : Fleet} {m m' : Memory} {new : Descriptor} {values : List Scalar}
    {before after done s size} {zero : Scalar} (hS : S.Valid F m)
    (h : S.CutShort m v values fresh before s after done S' m') (hsame : new.forget = fresh.forget)
    (hzeros : fresh.contents m = List.replicate size zero) :
    total (before.map (·.length)) ∈ fresh.boundaries ∧ new.contents m' =
      values.take (total (before.map (·.length))) ++
        List.replicate (size - total (before.map (·.length))) zero := by
  have hvalid : ShardsValid m fresh.type fresh.access (before ++ s :: after) :=
    h.shards ▸ (hS.vectors v fresh h.target).1
  constructor
  · -- the elements before a shard end at its boundary
    have hlength : before.length ≤ fresh.lengths.length := by
      simp [Descriptor.lengths, h.shards]
    have htake : fresh.lengths.take before.length = before.map (·.length) := by
      rw [Descriptor.lengths, h.shards, List.map_append, List.take_left' (List.length_map _)]
    have hboundary : fresh.boundaries[before.length]? =
        some (0 + total (fresh.lengths.take before.length)) :=
      getElem?_boundariesOf hlength
    rw [htake, Nat.zero_add] at hboundary
    exact List.mem_of_getElem? hboundary
  · -- the shard that has failed and those behind it hold what they held before
    have hbehind : contentsOf m (s :: after) =
        List.replicate (size - total (before.map (·.length))) zero := by
      rw [Descriptor.contents, h.shards, contentsOf_append] at hzeros
      rw [← List.drop_replicate, ← hzeros, List.drop_left' hvalid.append_left.length_contents]
    rw [Descriptor.contents_of_forget hsame, Descriptor.contents, h.shards, contentsOf_append,
      h.stored, h.behind, hbehind]

/-- A vector that is reallocated like another one is replaced before it takes the elements. -/
theorem runFrom_resizeLike (hv : S.vectors[v]? = some d) (hw : S.vectors[w]? = some other)
    (hne : v ≠ w) : (resizeLike v w access).runFrom S =
      (do setVector v (← make (d.like other access)); assign v (.vector w)).runFrom S := by
  rw [resizeLike, if_neg hne, Task.runFrom_bind_of_ok (vector_runFrom hv),
    Task.runFrom_bind_of_ok (vector_runFrom hw)]
  rfl

end Store

section Runs

open Store

variable {σ V : Type} {A : Arithmetic V} {h : Handler σ} {view : σ → Memory} {hardware : Hardware}
  {S S' : Store} {x x' : σ} {v w : VectorId} {e : Fault}

/-- A reallocation for a number of elements, for host data or with the first elements kept that
fails has changed no vector and no buffer that was there; in the first two cases not even a slot. -/
theorem Reachable.resize_unchanged_of_error
    (meets : h.Meets view (deviceContract A fun _ _ _ => True))
    (hreach : Reachable h view (.unrestricted hardware) S x) :
    (∀ devices extent host access, (∀ y, extent = some y → (S.plain (view x)).Offers y host) →
      ((resizeTo v devices extent host access).runFrom S).run h x = ((.error e, S'), x') →
      S'.vectors = S.vectors ∧
        ∀ b buf, (view x).buffer b = some buf → (view x').buffer b = some buf) ∧
    ∀ size, ((resizePreserving v size).runFrom S).run h x = ((.error e, S'), x') →
      S'.outline = S.outline ∧
        ∀ b buf, (view x).buffer b = some buf → (view x').buffer b = some buf := by
  have hS : S.Valid (.unrestricted hardware) (view x) := hreach.valid meets
  have hplain : S.Represents (view x) (S.plain (view x)) := .self _ _
  refine ⟨fun devices extent host access hoffers hrun => ?_, fun size hrun => ?_⟩
  · have hkept := (resizeTo_ensures (A := A) hS hplain trivial hoffers).of_run_error meets hrun
    exact ⟨(resizeTo_unmoved devices extent host access).of_run_error h.meets_any hrun,
      hkept.untouched.2⟩
  · have hkept := (resizePreserving_ensures (A := A) hS hplain).of_run_error meets hrun
    exact hkept.untouched

end Runs

namespace Sample

/-- Two devices, the second of which has no room for a third buffer and cannot be read. -/
def crowded : Machine.Executing :=
  ⟨.initial #[⟨[], none, true, 0⟩,
      ⟨[(.alloc, ⟨2, .resourceExhaustion, "", none⟩), (.read, ⟨0, .unknown, "", none⟩)],
        none, true, 0⟩],
    fun i d hd => by
      match i, hd with
      | 0, hd =>
        cases hd
        rfl
      | 1, hd =>
        cases hd
        rfl⟩

/-- Two vectors that fill these devices. -/
def filled : Store × Machine.Executing := after three (after three (store, crowded))

theorem reachable_filled :
    Reachable Machine.Executing.handle Machine.Executing.memory (.unrestricted hardware) filled.1
      filled.2 := by
  have hstart : Reachable Machine.Executing.handle Machine.Executing.memory (.unrestricted hardware)
      store crowded := .session {} (some .equally) (.start crowded) rfl (by simp)
  exact reachable_after (reachable_after hstart (Plain.offers_count _ _) trivial)
    (Plain.offers_count _ _) trivial

end Sample

/-- There is no room for the last four of twenty elements, and what is to be kept of three elements
cannot be read. -/
theorem Reachable.resize_unchanged_of_error_sample :
    (∃ e S' x', Sample.run (Store.resizeTo 0 [0, 1] (some (.count 20)) none .readOnly)
      Sample.filled =
        ((.error e, S'), x') ∧ S'.vectors = Sample.filled.1.vectors ∧
      ∀ b buf, Sample.filled.2.memory.buffer b = some buf → x'.memory.buffer b = some buf) ∧
    ∃ e S' x', Sample.run (Store.resizePreserving 0 4) Sample.filled = ((.error e, S'), x') ∧
      S'.outline = Sample.filled.1.outline ∧
      ∀ b buf, Sample.filled.2.memory.buffer b = some buf → x'.memory.buffer b = some buf := by
  have hrun : Sample.run (Store.resizeTo 0 [0, 1] (some (.count 20)) none .readOnly) Sample.filled =
      ((.error (.device (.operation ⟨"allocate", .resourceExhaustion, "", none⟩)),
        (Sample.after (.resizeTo 0 [0, 1] (some (.count 20)) none .readOnly) Sample.filled).1),
        (Sample.after (.resizeTo 0 [0, 1] (some (.count 20)) none .readOnly) Sample.filled).2) :=
    rfl
  have hrun' : Sample.run (Store.resizePreserving 0 4) Sample.filled =
      ((.error (.device (.operation ⟨"read buffer", .unknown, "", none⟩)),
        (Sample.after (.resizePreserving 0 4) Sample.filled).1),
        (Sample.after (.resizePreserving 0 4) Sample.filled).2) :=
    rfl
  constructor
  · exact ⟨_, _, _, hrun, (Reachable.resize_unchanged_of_error (Machine.Executing.meets _)
      Sample.reachable_filled).1 _ _ _ _ (by rintro _ ⟨⟩; exact Plain.offers_count _ _) hrun⟩
  · exact ⟨_, _, _, hrun', (Reachable.resize_unchanged_of_error (v := 0) (Machine.Executing.meets _)
      Sample.reachable_filled).2 _ hrun'⟩

section Runs

open Store

variable {σ V : Type} {A : Arithmetic V} {h : Handler σ} {view : σ → Memory} {hardware : Hardware}
  {S S' : Store} {x x' : σ} {v w : VectorId} {e : Fault}

/-- What a failed assignment leaves of a vector that has just been made like the other one and put
in the place of an old one. -/
theorem Store.Made.usurped_of_error (meets : h.Meets view (deviceContract A fun _ _ w => 1 ≤ w))
    (gentle : h.Gentle view) {d other fresh : Descriptor} {access : Access}
    {m : Memory} {S₁ : Store} (hS : S.Valid (.threaded hardware) m) (hv : S.vectors[v]? = some d)
    (hw : S.vectors[w]? = some other) (hne : v ≠ w)
    (hmade : Made (.threaded hardware) (S.plain m) S m (d.like other access) fresh S₁ (view x))
    (hlike : fresh.session = d.session ∧ fresh.access = access ∧
      fresh.boundaries = other.boundaries)
    (hrun : ((assign v (.vector w)).runFrom
      { S₁ with vectors := S₁.vectors.setIfInBounds v fresh }).run h x = ((.error e, S'), x')) :
    ∃ new values n, new.forget = fresh.forget ∧ S.Usurped m v d other access new S' (view x') ∧
      n ∈ other.boundaries ∧
      new.contents (view x') = values.take n ++ List.replicate (other.size - n) d.type.zero ∧
      (n ≠ 0 → (S.plain m).take A.byTree v w = some ((S.plain m).put v d.type values)) := by
  obtain ⟨size, host, hextent, -, htype, hinitial⟩ := hmade.elements
  obtain ⟨rfl, rfl⟩ : (other.size : Int) = size ∧ none = host := by
    simpa [Plain.extent, Descriptor.like] using hextent
  have htype : d.type = fresh.type := Except.ok.inj htype
  have hzeros : fresh.contents (view x) = List.replicate other.size d.type.zero := by
    rw [htype]
    exact (Option.some_inj.mp hinitial).symm
  set S₂ : Store := { S₁ with vectors := S₁.vectors.setIfInBounds v fresh } with hS₂
  have hplain : S.Represents m (S.plain m) := .self _ _
  have hvalid : S₂.Valid (.threaded hardware) (view x) :=
    (hmade.kept.becomes_replace hS hplain hmade.valid trivial hmade.new hv).1
  have hvectors : S₂.vectors = S.vectors.setIfInBounds v fresh := by rw [hS₂, hmade.vectors]
  have hfresh : S₂.vectors[v]? = some fresh := hvectors ▸ getElem?_put hv
  obtain ⟨-, zs, -, -, hhalted⟩ := hvalid.assign_halted meets gentle (Operand.free_vector w) hrun
  rcases hhalted with ⟨hvectors', hsame⟩ | ⟨d', fault, values, noted, zs', hd', -, hinterrupted,
    hvectors', -, hresult⟩
  · -- nothing has been stored
    have hmemory : view x' = view x := (Prod.mk.inj hsame).1
    refine ⟨fresh, [], 0, rfl, ?_, ?_, ?_, fun hzero => absurd rfl hzero⟩
    · exact hmade.usurped hlike rfl (hvectors'.trans hvectors) (hmemory ▸ .refl _ _ _)
    · rw [Descriptor.boundaries]
      exact List.mem_of_getElem? (getElem?_boundariesOf (Nat.zero_le _))
    · rw [hmemory, hzeros]
      rfl
  -- the assignment has been cut short
  obtain rfl := Option.some_inj.mp (hfresh.symm.trans hd')
  obtain ⟨before, s, after, done, y, -, -, -, -, hcut⟩ :=
    hvalid.cutShort hfresh hinterrupted hvectors'
  generalize hnew : { fresh with shards := noted } = new at hvectors'
  have hsame : new.forget = fresh.forget := by
    have hlater := (assign_within v (.vector w) S₂).of_run_error h.meets_any hrun
    have houtline := congrArg (fun vectors : Array Descriptor => vectors[v]?) hlater.outline
    simp only [outline, Array.getElem?_map, hvectors', getElem?_put hfresh, hfresh, Option.map_some,
      Option.some_inj] at houtline
    exact houtline
  obtain ⟨hboundary, hcontents⟩ := contents_of_cutShort hvalid hcut hsame hzeros
  -- the other vector holds what it held before, so the elements are those that were asked for
  have hother : S₂.vectors[w]? = some other := by
    rw [hvectors, Array.getElem?_setIfInBounds_ne hne, hw]
  have hkeeps : other.contents (view x) = other.contents m :=
    (hS.vectors w other hw).1.contents_of_differs hmade.kept.memory fun _ _ => List.not_mem_nil
  have hplain₂ : S₂.Represents (view x) (S₂.plain (view x)) := .self _ _
  refine ⟨new, values, _, hsame, ?_, hlike.2.2 ▸ hboundary, hcontents, fun _ => ?_⟩
  · refine hmade.usurped hlike hsame ?_ ?_
    · rw [hvectors', hvectors, Array.setIfInBounds_setIfInBounds]
    · refine hcut.memory.mono (fun b hb => ?_) (List.Subset.refl _)
      rw [Descriptor.buffers, hcut.shards, buffersOf_append]
      exact List.mem_append_left _ hb
  · rw [htype]
    exact Plain.take_congr hne (hplain₂.getElem?_eq_some hfresh)
      (htype ▸ hplain.getElem?_eq_some hv) (hkeeps ▸ hplain₂.getElem?_eq_some hother)
      (hplain.getElem?_eq_some hw) (Plain.take_byTree hresult)

/-- A reallocation like another vector that fails has changed no vector and no buffer that was there
if the new vector has not been made. Otherwise the new vector has taken the place of the old one,
which is lost, and holds the first of the elements to be taken, up to some boundary, and zeros
behind them. -/
theorem Reachable.resizeLike_usurped_of_error
    (meets : h.Meets view (deviceContract A fun _ _ w => 1 ≤ w)) (gentle : h.Gentle view)
    (hreach : Reachable h view (.threaded hardware) S x) {d other : Descriptor} {access : Access}
    (hv : S.vectors[v]? = some d) (hw : S.vectors[w]? = some other)
    (hrun : ((resizeLike v w access).runFrom S).run h x = ((.error e, S'), x')) :
    ((make (d.like other access)).runFrom S).run h x = ((.error e, S'), x') ∧
    S'.vectors = S.vectors ∧
      (∀ b buf, (view x).buffer b = some buf → (view x').buffer b = some buf) ∨
    ∃ fresh S₁ x₁, ((make (d.like other access)).runFrom S).run h x = ((.ok fresh, S₁), x₁) ∧
      ∃ new values n, new.forget = fresh.forget ∧
        S.Usurped (view x) v d other access new S' (view x') ∧ n ∈ other.boundaries ∧
        new.contents (view x') = values.take n ++ List.replicate (other.size - n) d.type.zero ∧
        (n ≠ 0 → (S.plain (view x)).take A.byTree v w =
          some ((S.plain (view x)).put v d.type values)) := by
  have hS : S.Valid (.threaded hardware) (view x) := hreach.valid meets
  have hne : v ≠ w := by
    rintro rfl
    rw [resizeLike, if_pos rfl] at hrun
    cases hrun
  -- all that comes before the swap is making the new vector
  rw [runFrom_resizeLike hv hw hne] at hrun
  have hmake := make_ensures (A := A) hS (.self (view x) S) (b := d.like other access) trivial
    (Plain.offers_count _ _)
  rcases hmakes : ((make (d.like other access)).runFrom S).run h x with ⟨⟨e' | fresh, S₁⟩, x₁⟩
  · -- the new vector has not been made
    obtain ⟨hrun', -⟩ := Task.run_bind_of_error (f := fun fresh => do
      setVector v fresh; assign v (.vector w))
      hmakes
    cases hrun'.symm.trans hrun
    have hkept := hmake.of_run_error meets hmakes
    have hunmoved :=
      (makeBy_within Session.partition (d.like other access) S).of_run_error h.meets_any
      hmakes
    exact .inl ⟨rfl, hunmoved, hkept.untouched.2⟩
  · -- the assignment starts with the new vector in place
    rw [Task.run_bind_of_ok hmakes] at hrun
    exact .inr ⟨fresh, S₁, x₁, rfl, (hmake.of_run_ok meets hmakes).usurped_of_error meets
      gentle hS hv hw hne (make_like.of_run_ok h.meets_any hmakes) hrun⟩

end Runs

/-- One vector is reallocated like another one, and the copy on the second device fails. The new
vector has taken the place of the old one, with the first element. -/
theorem Reachable.resizeLike_usurped_of_error_sample : ∃ e S' x' d other,
    Sample.uncopied.1.vectors[1]? = some d ∧ Sample.uncopied.1.vectors[0]? = some other ∧
    Sample.run (Store.resizeLike 1 0 .readWrite) Sample.uncopied = ((.error e, S'), x') ∧
    (S'.vectors[1]?).map (·.shards) =
      some [⟨0, 1, some 5, some ⟨.copy, 2⟩⟩, ⟨1, 2, some 6, none⟩] ∧
    (Sample.run (Store.make (d.like other .readWrite)) Sample.uncopied = ((.error e, S'), x') ∧
        S'.vectors = Sample.uncopied.1.vectors ∧
        (∀ b buf, Sample.uncopied.2.memory.buffer b = some buf → x'.memory.buffer b = some buf) ∨
      ∃ fresh S₁ x₁, Sample.run (Store.make (d.like other .readWrite)) Sample.uncopied =
          ((.ok fresh, S₁), x₁) ∧
        ∃ new values n, new.forget = fresh.forget ∧
          Sample.uncopied.1.Usurped Sample.uncopied.2.memory 1 d other .readWrite new S' x'.memory ∧
          n ∈ other.boundaries ∧
          new.contents x'.memory = values.take n ++ List.replicate (other.size - n) d.type.zero ∧
          (n ≠ 0 → (Sample.uncopied.1.plain Sample.uncopied.2.memory).take
            Arithmetic.wide.byTree 1 0 =
            some ((Sample.uncopied.1.plain Sample.uncopied.2.memory).put 1 d.type values))) := by
  have hrun : Sample.run (Store.resizeLike 1 0 .readWrite) Sample.uncopied =
      ((.error (.device (.operation ⟨"copy buffer", .unknown, "", none⟩)),
        (Sample.after (.resizeLike 1 0 .readWrite) Sample.uncopied).1),
        (Sample.after (.resizeLike 1 0 .readWrite) Sample.uncopied).2) := rfl
  obtain ⟨d, hd⟩ : ∃ d, Sample.uncopied.1.vectors[1]? = some d := ⟨_, rfl⟩
  obtain ⟨other, hother⟩ : ∃ other, Sample.uncopied.1.vectors[0]? = some other := ⟨_, rfl⟩
  exact ⟨_, _, _, d, other, hd, hother, hrun, rfl, Reachable.resizeLike_usurped_of_error
    (Machine.Executing.meets _) Machine.Executing.gentle Sample.reachable_uncopied hd hother hrun⟩

end DistributedVector
