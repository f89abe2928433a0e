import DistributedVector.Proofs.Allocation
import DistributedVector.Proofs.Reallocation

/-!
# The representation of vectors

Whatever happens to a store, its vectors stay well represented: boundaries split the elements over
the devices, each device with elements has a buffer of its own that has been allocated for them, and
no buffer belongs to two vectors. This holds also if operations break off at any call, since a
vector is put into the store only after all its buffers have been allocated, and whichever
boundaries strategies answer, since only accepted ones are used.

## Main definitions

* `Store.Owned`, `Store.LeavesOwned` — the invariant of stores, and tasks that keep it
* `Descriptor.Intact` — a vector as its users see it
* `Action`, `Arises` — what happens to stores, and the stores that come up

## Main results

* `Store.make_prepared` — a vector that is not in the store yet
* `Action.run_owned` — one action
* `Arises.represented` — all actions
-/

namespace DistributedVector

namespace Descriptor

variable {m : Allocated} {d : Descriptor} {k first last : Nat}

/-- A vector as its users see it. There is a boundary before each device and one behind the last;
they start at zero, do not decrease and end at the size, so that every index has one owner. A device
has no buffer if its slice is empty; otherwise it has one that it has allocated, with the size of
the slice and the type and access of the vector. Each device has a slot for an event. -/
structure Intact (m : Allocated) (d : Descriptor) : Prop where
  count : d.boundaries.length = d.devices.length + 1
  first : d.boundaries[0]? = some 0
  ordered : d.boundaries.Pairwise (· ≤ ·)
  last : d.boundaries[d.devices.length]? = some d.size
  owner : ∀ i < d.size, ∃! k, ∃ first last, d.boundaries[k]? = some first ∧
    d.boundaries[k + 1]? = some last ∧ first ≤ i ∧ i < last
  absent : ∀ (k : Nat) first last, d.boundaries[k]? = some first →
    d.boundaries[k + 1]? = some last → (d.buffer? k = none ↔ first = last)
  present : ∀ (k : Nat) first last b, d.boundaries[k]? = some first →
    d.boundaries[k + 1]? = some last → d.buffer? k = some b →
      ∃ device, d.devices[k]? = some device ∧ m b = some ⟨device, last - first, d.type, d.access⟩
  events : (d.shards.map (·.event)).length = d.devices.length

theorem length_devices (d : Descriptor) : d.devices.length = d.shards.length := List.length_map _

theorem length_lengths (d : Descriptor) : d.lengths.length = d.shards.length := List.length_map _

theorem getElem?_boundaries (h : k ≤ d.shards.length) :
    d.boundaries[k]? = some (total (d.lengths.take k)) := by
  rw [boundaries, getElem?_boundariesOf (by rwa [length_lengths]), Nat.zero_add]

theorem pairwise_boundariesOf (start : Nat) (ns : List Nat) :
    (boundariesOf start ns).Pairwise (· ≤ ·) ∧ ∀ b ∈ boundariesOf start ns, start ≤ b := by
  induction ns generalizing start with
  | nil => simp [boundariesOf]
  | cons n rest ih =>
    obtain ⟨hrest, hlower⟩ := ih (start + n)
    have hbehind : ∀ b ∈ boundariesOf (start + n) rest, start ≤ b := fun b hb =>
      Nat.le_trans (Nat.le_add_right start n) (hlower b hb)
    exact ⟨List.pairwise_cons.mpr ⟨hbehind, hrest⟩,
      List.forall_mem_cons.mpr ⟨Nat.le_refl start, hbehind⟩⟩

/-- Between two boundaries that follow one another lies the slice of a shard. -/
theorem exists_shard (hfirst : d.boundaries[k]? = some first)
    (hlast : d.boundaries[k + 1]? = some last) :
    ∃ s, d.shards[k]? = some s ∧ last = first + s.length := by
  have hlt : k < d.shards.length := by
    have := (List.getElem?_eq_some_iff.mp hlast).1
    rw [length_boundaries] at this
    omega
  have hget : d.shards[k]? = some d.shards[k] := List.getElem?_eq_getElem hlt
  refine ⟨_, hget, ?_⟩
  rw [getElem?_boundaries (Nat.le_of_lt hlt)] at hfirst
  rw [getElem?_boundaries hlt] at hlast
  have hlength : d.lengths[k]? = some d.shards[k].length := by
    rw [lengths, List.getElem?_map, hget, Option.map_some]
  rw [List.take_add_one, hlength, total_append] at hlast
  rw [← Option.some_inj.mp hfirst, ← Option.some_inj.mp hlast]
  rfl

theorem pairwise_boundaries (d : Descriptor) : d.boundaries.Pairwise (· ≤ ·) :=
  (pairwise_boundariesOf 0 d.lengths).1

/-- A boundary behind another one lies no further left. -/
theorem le_of_getElem?_boundaries {j a b : Nat} (hjk : j ≤ k) (ha : d.boundaries[j]? = some a)
    (hb : d.boundaries[k]? = some b) : a ≤ b := by
  rcases Nat.eq_or_lt_of_le hjk with rfl | hlt
  · exact Nat.le_of_eq (Option.some_inj.mp (ha.symm.trans hb))
  · obtain ⟨hj, rfl⟩ := List.getElem?_eq_some_iff.mp ha
    obtain ⟨hk, rfl⟩ := List.getElem?_eq_some_iff.mp hb
    exact List.pairwise_iff_getElem.mp d.pairwise_boundaries j k hj hk hlt

/-- The owner of an element lies between the boundaries of its number. -/
theorem Owner.boundaries {i : Nat} {before after : List Shard} {s : Shard}
    (h : d.Owner i before s after) :
    d.boundaries[before.length]? = some (total (before.map (·.length))) ∧
      d.boundaries[before.length + 1]? = some (total (before.map (·.length)) + s.length) := by
  have hk : before.length < d.shards.length := (List.getElem?_eq_some_iff.mp h.getElem?).1
  -- the boundary in front of the shard counts the elements of the shards before
  have hlengths : d.lengths.take before.length = before.map (·.length) := by
    rw [lengths, h.shards, List.map_append, List.take_left' (List.length_map _)]
  have hfirst := getElem?_boundaries (Nat.le_of_lt hk)
  rw [hlengths] at hfirst
  have hlast := getElem?_boundaries (k := before.length + 1) hk
  obtain ⟨s', hs', hlength⟩ := exists_shard hfirst hlast
  obtain rfl := Option.some_inj.mp (h.getElem?.symm.trans hs')
  rw [hlength] at hlast
  exact ⟨hfirst, hlast⟩

/-- Every index lies between the boundaries of some shard. -/
theorem exists_boundaries {i : Nat} (hi : i < d.size) :
    ∃ k first last, d.boundaries[k]? = some first ∧ d.boundaries[k + 1]? = some last ∧
      first ≤ i ∧ i < last := by
  obtain ⟨before, s, after, ho⟩ := exists_owner hi
  exact ⟨before.length, _, _, ho.boundaries.1, ho.boundaries.2, ho.lower, ho.upper⟩

/-- Every index has one owner. -/
theorem existsUnique_boundaries {i : Nat} (hi : i < d.size) :
    ∃! k, ∃ first last, d.boundaries[k]? = some first ∧ d.boundaries[k + 1]? = some last ∧
      first ≤ i ∧ i < last := by
  obtain ⟨k, first, last, hfirst, hlast, hlower, hupper⟩ := exists_boundaries hi
  refine ⟨k, ⟨first, last, hfirst, hlast, hlower, hupper⟩, ?_⟩
  rintro k' ⟨first', last', hfirst', hlast', hlower', hupper'⟩
  -- of two owners the first one would end before the second one starts
  by_contra hne
  rcases Nat.lt_or_gt_of_ne hne with hlt | hlt
  · have := le_of_getElem?_boundaries hlt hlast' hfirst
    omega
  · have := le_of_getElem?_boundaries hlt hlast hfirst'
    omega

/-- A vector that owns its buffers is intact. -/
theorem Owned.intact (h : d.Owned m) : d.Intact m := by
  refine ⟨?_, getElem?_boundaries (Nat.zero_le _), d.pairwise_boundaries, ?_,
    fun i hi => existsUnique_boundaries hi, ?_, ?_, ?_⟩
  · rw [length_boundaries, length_devices]
  · rw [getElem?_boundaries (Nat.le_of_eq (length_devices d)), length_devices, ← length_lengths,
      List.take_length]
    rfl
  · intro k first last hfirst hlast
    obtain ⟨s, hs, rfl⟩ := exists_shard hfirst hlast
    rw [buffer?, hs, Option.bind_some, (h.each s (List.mem_of_getElem? hs)).absent]
    omega
  · intro k first last b hfirst hlast hb
    obtain ⟨s, hs, rfl⟩ := exists_shard hfirst hlast
    rw [buffer?, hs, Option.bind_some] at hb
    refine ⟨s.device, by rw [devices, List.getElem?_map, hs, Option.map_some], ?_⟩
    rw [Nat.add_sub_cancel_left]
    exact (h.each s (List.mem_of_getElem? hs)).present b hb
  · rw [List.length_map, length_devices]

end Descriptor

namespace Store

variable {α : Type} {m m' m'' : Allocated} {S S' S'' : Store} {d d' : Descriptor}
  {v w : VectorId}

/-- Every vector owns its buffers, no buffer belongs to two vectors, and the sessions are
regular. -/
structure Owned (m : Allocated) (S : Store) : Prop where
  vectors : ∀ (v : VectorId) d, S.vectors[v]? = some d → d.Owned m
  apart : ∀ (v w : VectorId) d e, S.vectors[v]? = some d → S.vectors[w]? = some e → v ≠ w →
    ∀ b ∈ d.buffers, b ∉ e.buffers
  sessions : ∀ (k : SessionId) s, S.sessions[k]? = some s → s.Regular

theorem exists_of_outline (h : S'.outline = S.outline) (hv : S'.vectors[v]? = some d') :
    ∃ d, S.vectors[v]? = some d ∧ d'.forget = d.forget := by
  have hget := congrArg (·[v]?) h
  simp only [outline, Array.getElem?_map, hv, Option.map_some] at hget
  obtain ⟨d, hd, hsame⟩ := Option.map_eq_some_iff.mp hget.symm
  exact ⟨d, hd, hsame.symm⟩

namespace Owned

theorem empty (m : Allocated) : Owned m ⟨#[], #[]⟩ := ⟨by simp, by simp, by simp⟩

/-- Events do not matter, nor does what is allocated otherwise. -/
theorem of_later (hS : S.Owned m) (h : S.Later S') (hm : m.Grows m') : S'.Owned m' := by
  refine ⟨fun v d' hv => ?_, fun v w d' e' hv hw hne b hb => ?_, fun k s' hs' => ?_⟩
  · obtain ⟨d, hd, hsame⟩ := exists_of_outline h.outline hv
    exact ((hS.vectors v d hd).mono hm).of_forget hsame
  · obtain ⟨d, hd, hsame⟩ := exists_of_outline h.outline hv
    obtain ⟨e, he, hsame'⟩ := exists_of_outline h.outline hw
    rw [Descriptor.buffers_of_forget hsame] at hb
    rw [Descriptor.buffers_of_forget hsame']
    exact hS.apart v w d e hd he hne b hb
  · obtain ⟨s, hs, hlater⟩ := h.sessions k s' hs'
    exact hlater.regular (hS.sessions k s hs)

theorem mono (hS : S.Owned m) (hm : m.Grows m') : S.Owned m' := hS.of_later (refl_of Later S) hm

/-- A vector with buffers of its own is added, or takes the place of another one. -/
theorem insert_apart (hS : S.Owned m) (hm : m.Grows m') (hd : d.Owned m')
    (hapart : ∀ (w : VectorId) e, S.vectors[w]? = some e → ∀ b ∈ d.buffers, b ∉ e.buffers)
    {u : VectorId} (hu : S'.vectors[u]? = some d)
    (hothers : ∀ w, w ≠ u → S'.vectors[w]? = S.vectors[w]?)
    (hsessions : S'.sessions = S.sessions) : S'.Owned m' := by
  refine ⟨fun i e he => ?_, fun i j e e' he he' hne b hb => ?_, hsessions ▸ hS.sessions⟩
  · by_cases hi : i = u
    · subst hi
      obtain rfl := Option.some_inj.mp (hu.symm.trans he)
      exact hd
    · exact (hS.vectors i e (hothers i hi ▸ he)).mono hm
  · by_cases hi : i = u
    · subst hi
      obtain rfl := Option.some_inj.mp (hu.symm.trans he)
      exact hapart j e' (hothers j (Ne.symm hne) ▸ he') b hb
    · rw [hothers i hi] at he
      by_cases hj : j = u
      · subst hj
        obtain rfl := Option.some_inj.mp (hu.symm.trans he')
        exact fun hmem => hapart i e he b hmem hb
      · rw [hothers j hj] at he'
        exact hS.apart i j e e' he he' hne b hb

/-- A vector with buffers that have been new is added, or takes the place of another one. -/
theorem insert (hS : S.Owned m) (hm : m.Grows m') (hd : d.Owned m')
    (hnew : ∀ b ∈ d.buffers, m b = none) {u : VectorId} (hu : S'.vectors[u]? = some d)
    (hothers : ∀ w, w ≠ u → S'.vectors[w]? = S.vectors[w]?)
    (hsessions : S'.sessions = S.sessions) : S'.Owned m' :=
  -- the others have had their buffers when these were new
  hS.insert_apart hm hd
    (fun w e he b hb => (hS.vectors w e he).notMem_of_new (hnew b hb)) hu hothers
    hsessions

/-- Two vectors are exchanged. -/
theorem exchange (hS : S.Owned m) {a b : Descriptor} (hv : S.vectors[v]? = some a)
    (hw : S.vectors[w]? = some b) :
    Owned m { S with vectors := (S.vectors.setIfInBounds v b).setIfInBounds w a } := by
  -- a vector of the new store is one of the old store, under the number that it is swapped with
  have hlookup := getElem?_exchange hv hw
  refine ⟨fun i d hd => hS.vectors _ d (hlookup i ▸ hd), fun i j d e hd he hne => ?_, hS.sessions⟩
  exact hS.apart _ _ d e (hlookup i ▸ hd) (hlookup j ▸ he) ((Equiv.swap v w).injective.ne hne)

end Owned

/-- A task leaves a store with the invariant, whether it succeeds or breaks off. -/
def LeavesOwned (m : Allocated) (S : Store) (t : Task Store α) : Prop :=
  t.Ensures allocations (fun _ S' m' => S'.Owned m') (fun _ S' m' => S'.Owned m') S m

namespace LeavesOwned

/-- What changes events only keeps the invariant. -/
theorem of_within (hS : S.Owned m) {t : Task Store α} (ht : t.Within Later) : LeavesOwned m S t :=
  (ht S).allocating.imp (fun _ _ _ h => hS.of_later h.1 h.2) fun _ _ _ h => hS.of_later h.1 h.2

/-- What becomes of the value does not matter. -/
theorem map {t : Task Store α} (ht : LeavesOwned m S t) {β : Type} (g : α → β) :
    LeavesOwned m S (do return g (← t)) := by
  rw [LeavesOwned, Task.ensures_bind]
  exact ht

end LeavesOwned

/-- A vector that is ready to be put into a store: nothing but events has been changed there, and
its buffers are new. -/
structure Prepared (m : Allocated) (S : Store) (d : Descriptor) (S' : Store) (m' : Allocated) :
    Prop where
  later : S.Later S'
  grows : m.Grows m'
  owned : d.Owned m'
  new : ∀ b ∈ d.buffers, m b = none

namespace Prepared

/-- Work on the vector and inside the vectors of the store. -/
theorem step (h : Prepared m S d S' m') (hd : d.Alike d')
    (hS : S'.Later S'') (hm : m'.Grows m'') : Prepared m S d' S'' m'' :=
  ⟨trans_of Later h.later hS, h.grows.trans hm, (h.owned.mono hm).of_forget hd,
    by rw [Descriptor.buffers_of_forget hd]; exact h.new⟩

/-- The vector takes the place of another one. -/
theorem put (h : Prepared m S d S' m') (hS : S.Owned m) (hv : S.vectors[v]? = some d') :
    Owned m' { S' with vectors := S'.vectors.setIfInBounds v d } := by
  obtain ⟨e, he, -⟩ := exists_of_outline h.later.outline.symm hv
  exact (hS.of_later h.later (.refl m)).insert h.grows h.owned h.new (getElem?_put he)
    (fun w hw => Array.getElem?_setIfInBounds_ne (Ne.symm hw)) rfl

/-- The vector is added to the store. -/
theorem push (h : Prepared m S d S' m') (hS : S.Owned m) :
    Owned m' { S' with vectors := S'.vectors.push d } :=
  (hS.of_later h.later (.refl m)).insert h.grows h.owned h.new Array.getElem?_push_size
    (fun w hw => by rw [Array.getElem?_push, if_neg hw]) rfl

end Prepared

/-- A vector made after a blueprint: it has the devices and the size asked for, and the boundaries
are those given or those that the strategy in force has answered. -/
structure Built (S : Store) (b : Blueprint) (d : Descriptor) : Prop where
  devices : d.devices = b.devices
  access : d.access = b.access
  size : ∀ n, b.extent = .count n → (d.size : Int) = n
  given : ∀ part, b.partition = some part → d.boundaries.map Int.ofNat = part
  answered : b.partition = none → d.size ≠ 0 → ∃ s, S.sessions[b.session]? = some s ∧
    s.Answers d.size b.devices (d.boundaries.map Int.ofNat)

/-- A blueprint with a number of elements stands for this number. -/
theorem resolveExtent_count (b : Blueprint) : (resolveExtent b).Ensures .any
    (fun r _ _ => ∀ n, b.extent = .count n → r.1 = n) (fun _ _ _ => True) S () := by
  unfold resolveExtent
  split
  next source hdata =>
    refine (Task.ensures_true _).imp_ok ?_
    intro r _ _ _ n hcount
    cases hdata.symm.trans hcount
  next n hcount =>
    have hsame : ∀ k, b.extent = .count k → n = k := fun k h => by
      cases hcount.symm.trans h
      rfl
    refine Task.ensures_ite.mpr ⟨fun _ => trivial, fun _ => ?_⟩
    dsimp only
    split
    · exact hsame
    · rw [Task.ensures_bind]
      exact (Task.ensures_true _).imp_ok fun _ _ _ _ => hsame

/-- Making a vector changes nothing else, also where it fails. -/
theorem make_prepared (b : Blueprint) :
    (make b).Ensures allocations (fun d S' m' => Prepared m S d S' m' ∧ S.Built b d)
      (fun _ S' m' => S.Later S' ∧ m.Grows m') S m := by
  simp only [make, makeBy, Task.ensures_bind, Task.ensures_ite]
  refine ⟨fun _ => ⟨refl_of Later S, .refl m⟩, fun _ => ?_⟩
  -- the content is gathered from other vectors before anything is allocated
  have hextent := ((resolveExtent_within (R := Same) b S).and (resolveExtent_count b)).allocating
    (m := m)
  refine hextent.imp ?_ fun _ _ _ h => ⟨h.1.1.later, h.2⟩
  rintro ⟨n, host⟩ S₁ m₁ ⟨⟨hsame, hcount⟩, hgrows₁⟩
  rw [onSession_ensures]
  refine ⟨fun s hs => ?_, fun _ => ⟨hsame.later, hgrows₁⟩⟩
  have hlater : ∀ s', s.Later s' →
      S.Later { S₁ with sessions := S₁.sessions.setIfInBounds b.session s' } := fun s' h =>
    trans_of Later hsame.later (later_putSession hs h)
  -- the session makes the vector, and keeps the kernels that it has
  have hcreate := (Vector.create_made (s := s) (m := m₁) b.session).and
    (Session.create_within (Session.performance_within b.session)
      ⟨b.devices, n, host, b.type, b.access, b.session, b.partition⟩ s).allocating
  refine hcreate.imp ?_ fun _ s' _ h => ⟨hlater s' h.2.1, hgrows₁.trans h.1⟩
  rintro d s' m₂ ⟨⟨hmade, hgrows₂⟩, hsession, -⟩
  refine ⟨⟨hlater s' hsession, hgrows₁.trans hgrows₂, hmade.owned,
    fun x hx => hgrows₁.eq_none (hmade.new x hx)⟩, hmade.devices, hmade.access,
    fun k hk => hmade.size.trans (hcount k hk), hmade.given, fun hnone hne => ?_⟩
  refine ⟨s, hsame.2 ▸ hs, ?_⟩
  rw [hmade.size]
  exact hmade.answered hnone fun hzero => hne (Int.ofNat.inj (hmade.size.trans hzero))

variable (hS : S.Owned m)
include hS

theorem construct_owned (b : Blueprint) :
    (construct b).Ensures allocations (fun v S' m' => S'.Owned m' ∧
        v = S.vectors.size ∧ ∃ d, S'.vectors[v]? = some d ∧ S.Built b d)
      (fun _ S' m' => S'.Owned m') S m := by
  simp only [construct, constructBy, Task.ensures_bind, Task.ensures_get, Task.ensures_modify,
    Task.ensures_pure]
  refine (make_prepared b).imp ?_ fun _ _ _ h => hS.of_later h.1 h.2
  rintro d S' m' ⟨hprepared, hbuilt⟩
  have hsize : S'.vectors.size = S.vectors.size := by
    simpa [outline] using congrArg Array.size hprepared.later.outline
  exact ⟨hprepared.push hS, hsize, d, Array.getElem?_push_size, hbuilt⟩

theorem swap_owned (v w : VectorId) : LeavesOwned m S (swap v w) := by
  simp only [LeavesOwned, swap, setVector, Task.ensures_bind, vector_ensures, Task.ensures_modify]
  exact ⟨fun a hv => ⟨fun b hw => hS.exchange hv hw, fun _ => hS⟩, fun _ => hS⟩

theorem resizeLike_owned (v w : VectorId) (access : Access) :
    LeavesOwned m S (resizeLike v w access) := by
  simp only [LeavesOwned, resizeLike, setVector, Task.ensures_ite, Task.ensures_bind,
    vector_ensures, Task.ensures_modify]
  refine ⟨fun _ => hS, fun _ => ⟨fun d hv => ⟨fun e hw => ?_, fun _ => hS⟩, fun _ => hS⟩⟩
  refine (make_prepared _).imp ?_ fun _ _ _ h => hS.of_later h.1 h.2
  rintro fresh S' m' ⟨hprepared, -⟩
  -- the new vector is in place when it gets its content, so a failure then leaves it there
  exact LeavesOwned.of_within (hprepared.put hS hv) (assign_within v _)

theorem resizeTo_owned (v : VectorId) (devices : List DeviceId) (extent : Option Extent)
    (host : Option Collection) (access : Access) :
    LeavesOwned m S (resizeTo v devices extent host access) := by
  cases extent with
  | none => exact hS
  | some extent =>
    simp only [LeavesOwned, resizeTo, resizeToBy, setVector, Task.ensures_bind, vector_ensures,
      Task.ensures_modify]
    refine ⟨fun d hv => ?_, fun _ => hS⟩
    refine (make_prepared _).imp ?_ fun _ _ _ h => hS.of_later h.1 h.2
    rintro fresh S' m' ⟨hprepared, -⟩
    exact hprepared.put hS hv

omit hS in
/-- Moving elements into a vector that is not in the store changes events only, there and here. -/
theorem moveRuns_alike {R : Store → Store → Prop} [IsPreorder Store R] [Eventless R] (v : VectorId)
    (fresh : Descriptor) (runs : List (Nat × Nat)) : (moveRuns v fresh runs).Ensures .any
      (fun d S' _ => fresh.Alike d ∧ R S S') (fun _ S' _ => R S S') S () := by
  induction runs generalizing fresh S with
  | nil => exact ⟨rfl, refl_of R S⟩
  | cons run rest ih =>
    obtain ⟨start, stop⟩ := run
    simp only [moveRuns, Task.ensures_bind, Task.ensures_runOn]
    refine (onVector_within (Vector.readRange_within _ _) v S).imp_ok ?_
    intro data S₁ _ hS₁
    refine (Vector.write_within _ _ data true fresh).imp ?_ fun _ _ _ _ => hS₁
    intro _ fresh₁ _ hfresh
    exact (ih fresh₁).imp
      (fun _ _ _ h => ⟨trans_of Descriptor.Alike hfresh h.1, trans_of R hS₁ h.2⟩)
      fun _ _ _ h => trans_of R hS₁ h

theorem resizePreserving_owned (v : VectorId) (size : Int) :
    LeavesOwned m S (resizePreserving v size) := by
  simp only [LeavesOwned, resizePreserving, resizePreservingBy, setVector, Task.ensures_bind,
    vector_ensures, Task.ensures_runOn, Task.ensures_modify]
  refine ⟨fun d hv => ?_, fun _ => hS⟩
  refine (make_prepared _).imp ?_ fun _ _ _ h => hS.of_later h.1 h.2
  rintro fresh S₁ m₁ ⟨h₁, -⟩
  have hS₁ : S₁.Owned m₁ := hS.of_later h₁.later h₁.grows
  -- the three phases after the allocation work on the new vector, which the store does not have yet
  refine (Vector.copyPieces_within _ fresh).allocating.imp ?_ fun _ _ _ h => hS₁.mono h.2
  rintro _ fresh₂ m₂ ⟨hsame, hgrows⟩
  have h₂ : Prepared m S fresh₂ S₁ m₂ := h₁.step hsame (refl_of Later S₁) hgrows
  refine (Vector.waitAll_within fresh₂.shards (R := Later) S₁).allocating.imp ?_
    fun _ _ _ h => (hS₁.mono hgrows).of_later h.1 h.2
  rintro _ S₃ m₃ ⟨hlater, hgrows⟩
  have h₃ : Prepared m S fresh₂ S₃ m₃ := h₂.step rfl hlater hgrows
  refine (moveRuns_alike (R := Later) v fresh₂ _).allocating.imp ?_
    fun _ _ _ h => (hS.of_later h₃.later h₃.grows).of_later h.1 h.2
  rintro fresh₄ S₄ m₄ ⟨⟨hsame, hlater⟩, hgrows⟩
  exact (h₃.step hsame hlater hgrows).put hS hv

end Store

/-- What a session is asked for beside the operations on its vectors: kernels for one context and
for several, a strategy, boundaries, and the throughput of a device. -/
inductive Request
  | kernel (typeOf : VectorId → DataType) (devices : List DeviceId) (e : Expr VectorId)
      (result : Option String)
  | kernels (typeOf : VectorId → DataType) (devices : List DeviceId) (e : Expr VectorId)
      (result : Option String)
  | setStrategy (strategy : Option Strategy)
  | partition (n : Int) (devices : List DeviceId)
  | weight (device : DeviceId)

/-- What happens to a store: an operation, an element set to any content, waiting for the devices of
a vector, or a request to a session. -/
inductive Action
  | operation (op : Operation)
  | set (v : VectorId) (index : Index) (x : Content)
  | synchronize (v : VectorId)
  | request (k : SessionId) (r : Request)

open DistributedVector.Task in
/-- Runs a request in the session of a number. -/
def Request.run (k : SessionId) : Request → Task Session Unit
  | kernel typeOf devices e result => do let _ ← Session.kernel typeOf devices e result
  | kernels typeOf devices e result => do let _ ← Session.kernels typeOf devices e result
  | setStrategy strategy => Session.setStrategy strategy
  | partition n devices => do let _ ← Session.partition k n devices
  | weight device => do let _ ← Session.weight k device

theorem Request.run_within (k : SessionId) (r : Request) : (r.run k).Within Session.Later := by
  cases r with
  | kernel typeOf devices e result =>
    exact (Session.kernel_within typeOf devices e result).bind fun _ => Task.within_pure _
  | kernels typeOf devices e result =>
    exact (Session.kernels_within typeOf devices e result).bind fun _ => Task.within_pure _
  | setStrategy strategy => exact Session.setStrategy_within strategy
  | partition n devices =>
    exact (Session.partition_within k n devices).bind fun _ => Task.within_pure _
  | weight device => exact (Session.weight_within k device).bind fun _ => Task.within_pure _

namespace Action

open Store DistributedVector.Task

/-- Runs an action on a store. -/
def run : Action → Task Store Unit
  | operation op => do let _ ← op.run
  | set v index x => Store.set v index x
  | synchronize v => onVector v Vector.synchronize
  | request k r => onSession k (r.run k)

variable {m : Allocated} {S : Store}

theorem operation_owned (hS : S.Owned m) (op : Operation) : LeavesOwned m S op.run := by
  have hwithin : ∀ {α : Type} {t : Task Store α} {answer : α → Answer}, t.Within Later →
      LeavesOwned m S (do return answer (← t)) := fun ht => (LeavesOwned.of_within hS ht).map _
  cases op with
  -- what makes, replaces or exchanges vectors
  | construct b =>
    exact LeavesOwned.map ((construct_owned hS b).imp (fun _ _ _ h => h.1) fun _ _ _ h => h) _
  | resizeLike v w access => exact (resizeLike_owned hS v w access).map _
  | resizeTo v devices extent host access =>
    exact (resizeTo_owned hS v devices extent host access).map _
  | resizePreserving v size => exact (resizePreserving_owned hS v size).map _
  | swap v w => exact (swap_owned hS v w).map _
  -- what changes events only
  | write v offset count source blocking => exact hwithin (write_within v _ _ _ _)
  | read v offset count goal blocking =>
    exact .of_within hS ((onVector_within (Vector.read_within _ _ _ _) v).bind fun _ =>
      (Vector.contents_within _).bind fun _ => within_pure _)
  | get v index => exact hwithin (get_within v index)
  | set v index x => exact hwithin (set_within v index _)
  | getSlice v s => exact hwithin (getSlice_within v s)
  | setSlice v s x => exact hwithin (setSlice_within v s x)
  | iterate v => exact hwithin (elements_within v)
  | copy source target blocking => exact hwithin (copy_within source target blocking)
  | copyRange first last result blocking =>
    exact hwithin (copyRange_within first last result blocking)
  | assign v source => exact hwithin (assign_within v source)
  | update v op source => exact hwithin (update_within v op source)

/-- Every action keeps the invariant, whether it succeeds or breaks off. -/
theorem run_owned (hS : S.Owned m) (a : Action) : LeavesOwned m S a.run := by
  cases a with
  | operation op => exact (operation_owned hS op).map fun _ => ()
  | set v index x => exact .of_within hS (set_within v index x)
  | synchronize v => exact .of_within hS (onVector_within Vector.synchronize_within v)
  | request k r => exact .of_within hS (onSession_within k (r.run_within k))

end Action

section Runs

open Store

variable {σ : Type} {h : Handler σ} {view : σ → Allocated} {S : Store} {x : σ}

/-- The stores that come up, with the state of the devices: actions follow one another, each of
which may break off, sessions are opened with settings that are accepted and any strategy, and
others may allocate in between. -/
inductive Arises (h : Handler σ) (view : σ → Allocated) : Store → σ → Prop
  | start (x : σ) : Arises h view ⟨#[], #[]⟩ x
  | opened {S : Store} {x : σ} (config : SessionConfig) (hardware : Hardware)
    (strategy : Option Strategy) : Arises h view S x → config.validate = .ok config →
    Arises h view { S with sessions := S.sessions.push (.create config hardware strategy) } x
  | others {S : Store} {x y : σ} : Arises h view S x → (view x).Grows (view y) → Arises h view S y
  | action {S S' : Store} {x x' : σ} {r : Except Fault Unit} (a : Action) : Arises h view S x →
    (a.run.runFrom S).run h x = ((r, S'), x') → Arises h view S' x'

/-- Every store that comes up owns its buffers. -/
theorem Arises.owned (meets : h.Meets view allocations) (hS : Arises h view S x) :
    S.Owned (view x) := by
  induction hS with
  | start x => exact .empty _
  | opened config hardware strategy _ hconfig ih =>
    refine ⟨ih.vectors, ih.apart, fun k s hs => ?_⟩
    rw [Array.getElem?_push] at hs
    split at hs
    · cases hs
      exact ⟨hconfig, fun _ he => absurd he List.not_mem_nil⟩
    · exact ih.sessions k s hs
  | others _ hgrows ih => exact ih.mono hgrows
  | @action S S' x x' r a _ hrun ih =>
    have hall := Action.run_owned ih a
    cases r with
    | ok u => exact hall.of_run_ok meets hrun
    | error e => exact hall.of_run_error meets hrun

/-- In every store that comes up all vectors are intact and no buffer belongs to two of them; and a
vector that is made has the devices, the size and the boundaries that it is to have. -/
theorem Arises.represented (meets : h.Meets view allocations) (hS : Arises h view S x) :
    (∀ (v : VectorId) d, S.vectors[v]? = some d → d.Intact (view x)) ∧
    (∀ (v w : VectorId) d e, S.vectors[v]? = some d → S.vectors[w]? = some e → v ≠ w →
      ∀ b ∈ d.buffers, b ∉ e.buffers) ∧
    ∀ b v S' x', ((construct b).runFrom S).run h x = ((.ok v, S'), x') →
      v = S.vectors.size ∧ ∃ d, S'.vectors[v]? = some d ∧ S.Built b d := by
  have howned := hS.owned meets
  refine ⟨fun v d hv => (howned.vectors v d hv).intact, howned.apart, fun b v S' x' hrun => ?_⟩
  exact ((construct_owned howned b).of_run_ok meets hrun).2

end Runs

namespace Sample

/-- Devices that have room for so many buffers, and carry out all other commands. -/
def shelf (room : Nat) : Handler (List Origin)
  | .allocate device size type access, s =>
    if s.length < room then (.ok s.length, s ++ [⟨device, size, type, access⟩])
    else (.error (.operation ⟨"allocate", .resourceExhaustion, "", none⟩), s)
  | .write .., s => (.ok ⟨.write, 0⟩, s)
  | .read .., s => (.ok ⟨.read, 0⟩, s)
  | .copy .., s => (.ok ⟨.copy, 0⟩, s)
  | .launch .., s => (.ok ⟨.launch, 0⟩, s)
  | .build .., s | .wait .., s | .synchronize .., s => (.ok (), s)
  | .hostArray .., s => (0, s)
  | .hostContents .., s => (#[], s)
  | .clock, s => (0, s)
  | .report .., s | .multiply .., s => ((), s)

theorem shelf_meets (room : Nat) : (shelf room).Meets (fun s b => s[b]?) allocations := by
  intro c s _
  cases c with
  | allocate device size type access =>
    simp only [shelf]
    split
    · refine ⟨List.getElem?_eq_none (Nat.le_refl _), funext fun b => ?_⟩
      by_cases hb : b = s.length
      · subst hb
        simp
      · rw [Function.update_of_ne hb]
        rcases Nat.lt_or_gt_of_ne hb with hlt | hlt
        · exact List.getElem?_append_left hlt
        · rw [List.getElem?_eq_none (by simp; omega), List.getElem?_eq_none (Nat.le_of_lt hlt)]
    · rfl
  | _ => rfl

/-- A store and devices with room for three buffers after an action. -/
def attempt (a : Action) (s : Store × List Origin) : Store × List Origin :=
  let r := (a.run.runFrom s.1).run (shelf 3) s.2
  (r.1.2, r.2)

theorem arises_attempt {s : Store × List Origin} {a : Action}
    (h : Arises (shelf 3) (fun s b => s[b]?) s.1 s.2) :
    Arises (shelf 3) (fun s b => s[b]?) (attempt a s).1 (attempt a s).2 := .action a h rfl

/-- A vector on two devices whose reallocation breaks off twice: there is no room for the second
buffer, and then the strategy answers boundaries that decrease. -/
def brokenOff : Store × List Origin :=
  attempt (.operation (.resizePreserving 0 4)) <| attempt (.operation (.resizePreserving 0 4)) <|
    attempt (.operation (.construct
      ⟨[0, 1], .count 3, none, .exact .int32, .readWrite, 0, some [0, 1, 3]⟩))
      (⟨#[], #[.create {} (fun _ => ⟨"sample", .number 0, .processor, 256, fun _ => 256, 1⟩)
        (some (.inTurn [[0, 2, 4], [0, 5, 4]]))]⟩, [])

theorem arises_brokenOff : Arises (shelf 3) (fun s b => s[b]?) brokenOff.1 brokenOff.2 :=
  arises_attempt (arises_attempt (arises_attempt (.opened _ _ _ (.start []) rfl)))

end Sample

/-- The vector whose reallocation has broken off is intact, and keeps its boundaries; the first
buffer of the new vector has been allocated for nothing. -/
theorem Arises.represented_brokenOff : ∃ d, Sample.brokenOff.1.vectors[0]? = some d ∧
    d.boundaries = [0, 1, 3] ∧ d.Intact (fun b => Sample.brokenOff.2[b]?) ∧
    Sample.brokenOff.2.length = 3 :=
  ⟨_, rfl, rfl, (Arises.represented (Sample.shelf_meets 3) Sample.arises_brokenOff).1 0 _ rfl, rfl⟩

end DistributedVector
