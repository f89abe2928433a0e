import DistributedVector.Proofs.Later

/-!
# Buffers of new vectors

All that is assumed of devices here is that an allocation that succeeds gives a buffer that has not
been there before. What transfers, copies and launches reply is left open, and each of them may
fail. Even so a vector that has just been made has a buffer for each device with elements, of the
size and type asked for, and its boundaries are the very list that was given or that the strategy
has answered.

## Main definitions

* `Allocated`, `allocations` — what buffers have been allocated as, and the contract
* `Allocated.Grows` — buffers are allocated, and none is given back
* `Shard.Owned`, `Descriptor.Owned` — the buffers of a vector have been allocated for it
* `Session.Answers` — what the strategy in force answers

## Main results

* `Task.Ensures.allocating` — what holds for all replies holds here, and no buffer is lost
* `boundariesOf_lengthsOf` — accepted boundaries are the boundaries of the vector
* `Vector.create_made` — a new vector
-/

namespace DistributedVector

/-- What a buffer has been allocated as. -/
structure Origin where
  device : DeviceId
  size : Nat
  type : ElementType
  access : Access

/-- The buffers that have been allocated. -/
abbrev Allocated := BufferId → Option Origin

namespace Allocated

variable {m m' m'' : Allocated}

/-- Whatever has been allocated stays. -/
def Grows (m m' : Allocated) : Prop := ∀ b o, m b = some o → m' b = some o

theorem Grows.refl (m : Allocated) : m.Grows m := fun _ _ h => h

theorem Grows.trans (h : m.Grows m') (h' : m'.Grows m'') : m.Grows m'' :=
  fun b o hb => h' b o (h b o hb)

/-- What is new after something has been allocated was new before. -/
theorem Grows.eq_none (h : m.Grows m') {b : BufferId} (hb : m' b = none) : m b = none := by
  cases hm : m b with
  | none => rfl
  | some o => simp [h b o hm] at hb

theorem Grows.update {b : BufferId} (hb : m b = none) (o : Origin) :
    m.Grows (Function.update m b (some o)) := by
  intro b' o' h
  have hne : b' ≠ b := by
    rintro rfl
    simp [hb] at h
  rwa [Function.update_of_ne hne]

/-- What a call can leave behind: an allocation that succeeds gives a new buffer. -/
def Effect : (c : Call) → Allocated → c.Reply → Allocated → Prop
  | .allocate device size type access, m, .ok b, m' =>
    m b = none ∧ m' = Function.update m b (some ⟨device, size, type, access⟩)
  | _, m, _, m' => m' = m

theorem Effect.grows {c : Call} {r : c.Reply} (h : Effect c m r m') : m.Grows m' := by
  unfold Effect at h
  split at h
  · obtain ⟨hnew, rfl⟩ := h
    exact .update hnew _
  · subst h
    exact .refl _

end Allocated

/-- Devices of which only this is known: a buffer that is allocated is new. -/
def allocations : Contract Allocated where
  allows _ _ := True
  effect := Allocated.Effect

section Growth

variable {α τ : Type} {m : Allocated} {s : τ}

theorem Program.Ensures.allocating {p : Program α} {good : α → Unit → Prop}
    (h : p.Ensures .any good ()) :
    p.Ensures allocations (fun a m' => good a () ∧ m.Grows m') m := by
  induction p generalizing m with
  | pure a => exact ⟨h, .refl m⟩
  | call c next ih =>
    refine ⟨trivial, fun r m' he => ?_⟩
    exact (ih r (h.2 r () trivial)).imp fun _ _ hpost => ⟨hpost.1, he.grows.trans hpost.2⟩

/-- What holds whatever is replied holds of devices that allocate, and no buffer is lost. -/
theorem Task.Ensures.allocating {t : Task τ α} {good : α → τ → Unit → Prop}
    {bad : Fault → τ → Unit → Prop} (h : t.Ensures .any good bad s ()) :
    t.Ensures allocations (fun a s' m' => good a s' () ∧ m.Grows m')
      (fun e s' m' => bad e s' () ∧ m.Grows m') s m := by
  apply (Program.Ensures.allocating h).imp
  rintro ⟨_ | _, s'⟩ m' hpost <;> exact hpost

theorem Task.ensures_true (t : Task τ α) :
    t.Ensures .any (fun _ _ _ => True) (fun _ _ _ => True) s () :=
  Program.ensures_any fun r => by obtain ⟨_ | _, _⟩ := r <;> trivial

end Growth

section Owned

variable {m m' : Allocated} {type : ElementType} {access : Access}

/-- A shard without elements has no buffer; the buffer of any other one has been allocated for
it. -/
structure Shard.Owned (m : Allocated) (type : ElementType) (access : Access) (s : Shard) :
    Prop where
  absent : s.buffer = none ↔ s.length = 0
  present : ∀ b, s.buffer = some b → m b = some ⟨s.device, s.length, type, access⟩

theorem Shard.Owned.mono {s : Shard} (h : s.Owned m type access) (hm : m.Grows m') :
    s.Owned m' type access :=
  ⟨h.absent, fun b hb => hm _ _ (h.present b hb)⟩

/-- A shard with elements has a buffer that has been allocated for it. -/
theorem Shard.Owned.exists_buffer {s : Shard} (h : s.Owned m type access) (hs : s.length ≠ 0) :
    ∃ b, s.buffer = some b ∧ m b = some ⟨s.device, s.length, type, access⟩ := by
  obtain ⟨b, hb⟩ := Option.ne_none_iff_exists'.mp fun hnone => hs (h.absent.mp hnone)
  exact ⟨b, hb, h.present b hb⟩

/-- The buffers of a vector have been allocated for its shards, each for one of them. -/
structure Descriptor.Owned (m : Allocated) (d : Descriptor) : Prop where
  each : ∀ s ∈ d.shards, s.Owned m d.type d.access
  distinct : d.buffers.Nodup

namespace Descriptor.Owned

variable {d d' : Descriptor}

theorem mono (h : d.Owned m) (hm : m.Grows m') : d.Owned m' :=
  ⟨fun s hs => (h.each s hs).mono hm, h.distinct⟩

theorem of_forget (h : d.Owned m) (hsame : d'.forget = d.forget) : d'.Owned m := by
  refine ⟨fun s' hs' => ?_, by rw [buffers_of_forget hsame]; exact h.distinct⟩
  -- the shard of `d` that differs in its event at most
  have hmem : s'.forget ∈ d.shards.map Shard.forget := by
    have hshards : d'.shards.map Shard.forget = d.shards.map Shard.forget :=
      map_shards_of_forget hsame fun _ => rfl
    rw [← hshards]
    exact List.mem_map_of_mem hs'
  obtain ⟨s, hs, heq⟩ := List.mem_map.mp hmem
  rw [type_of_forget hsame, access_of_forget hsame]
  have howned : s.forget.Owned m d.type d.access := ⟨(h.each s hs).absent, (h.each s hs).present⟩
  rw [heq] at howned
  exact ⟨howned.absent, howned.present⟩

/-- A buffer that has not been allocated yet is none of the vector. -/
theorem notMem_of_new (h : d.Owned m) {b : BufferId} (hb : m b = none) : b ∉ d.buffers := by
  intro hmem
  obtain ⟨s, hs, hbuffer⟩ := mem_buffersOf.mp hmem
  simp [(h.each s hs).present b hbuffer] at hb

end Descriptor.Owned

end Owned

section Boundaries

/-- Boundaries that do not decrease are the ends of the ranges between them. -/
theorem boundariesOf_lengthsOf {a : Nat} {rest : List Int} (h : nondecreasing ((a : Int) :: rest)) :
    (boundariesOf a (lengthsOf ((a : Int) :: rest))).map Int.ofNat = (a : Int) :: rest := by
  induction rest generalizing a with
  | nil => rfl
  | cons b rest ih =>
    simp only [nondecreasing, Bool.and_eq_true, decide_eq_true_eq] at h
    obtain ⟨hstep, hrest⟩ := h
    -- no boundary is negative, as none lies before the first
    obtain ⟨k, rfl⟩ := Int.eq_ofNat_of_zero_le (Int.le_trans (Int.natCast_nonneg a) hstep)
    have hnext : a + ((k : Int) - a).toNat = k := by omega
    rw [lengthsOf, boundariesOf, hnext, List.map_cons, ih hrest]
    rfl

/-- Accepted boundaries are the boundaries between shards of the lengths that they give. -/
theorem boundariesOf_of_validate {part : List Int} {n devices : Int}
    (h : validatePartition part n devices = .ok ()) :
    (boundariesOf 0 (lengthsOf part)).map Int.ofNat = part := by
  obtain ⟨rest, rfl, -, -, hmonotone⟩ := validatePartition_eq_ok h
  exact boundariesOf_lengthsOf hmonotone

theorem validatePartition_replicate_zero (devices : Nat) :
    validatePartition (List.replicate (devices + 1) 0) 0 devices = .ok () :=
  validatePartition_iff.mpr {
    length := List.length_replicate
    first := by simp [List.head?_replicate]
    last := by simp [List.getLast?_replicate]
    monotone := List.pairwise_replicate.mpr (.inr (Int.le_refl 0)) }

end Boundaries

/-- What a session answers by the strategy in force; partition by throughput depends on the
clock. -/
def Session.Answers (s : Session) (n : Int) (devices : List DeviceId) (part : List Int) : Prop :=
  match s.strategy with
  | some .equally => part = partitionEqually n devices.length
  | some (.custom rule) => rule s.asked n devices = .ok part
  | some .performance | none => True

namespace Session

variable {m : Allocated} {s : Session} {perform : Int → List DeviceId → Task Session (List Int)}
  {n : Int} {devices : List DeviceId}

/-- Boundaries come from the strategy in force, whatever partition by throughput does. -/
theorem consult_answers : (consult perform n devices).Ensures .any
    (fun part _ _ => s.Answers n devices part) (fun _ _ _ => True) s () := by
  simp only [consult, currentStrategy, Task.ensures_bind, Task.ensures_get]
  split
  next strategy hstrategy =>
    rw [Task.ensures_pure]
    cases strategy with
    | equally => simp [Answers, hstrategy]
    | performance =>
      exact (Task.ensures_true _).imp_ok fun _ _ _ _ => by simp [Answers, hstrategy]
    | custom rule => simp [Answers, hstrategy]
  next hnone =>
    simp only [Task.ensures_bind, Task.ensures_modify, Task.ensures_pure]
    exact (Task.ensures_true _).imp_ok fun _ _ _ _ => by simp [Answers, hnone]

/-- A session hands out boundaries only if they split the elements. -/
theorem partition_accepted (owner : SessionId) : (partition owner n devices).Ensures .any
    (fun part _ _ => s.Answers n devices part ∧ validatePartition part n devices.length = .ok ())
    (fun _ _ _ => True) s () := by
  simp only [partition, partitionWith, Task.ensures_bind, ensures_orFault]
  refine consult_answers.imp_ok fun part s' _ h => ⟨fun _ hvalid => ?_, fun _ _ => trivial⟩
  rw [report, Task.ensures_perform]
  exact Program.ensures_any fun _ => ⟨h, hvalid⟩

end Session

namespace Vector

variable {m m' : Allocated}

/-- Shards that are allocated own their buffers, which are new. -/
theorem allocate_owned {τ : Type} {s : τ} {type : ElementType} {access : Access}
    {lengths : List (DeviceId × Nat)} :
    (allocate type access lengths : Task τ (List Shard)).Ensures allocations
      (fun shards s' m' => s' = s ∧ m.Grows m' ∧ (∀ s ∈ shards, s.Owned m' type access) ∧
        (buffersOf shards).Nodup ∧ (∀ b ∈ buffersOf shards, m b = none) ∧
        shards.map (fun s => (s.device, s.length)) = lengths)
      (fun _ s' m' => s' = s ∧ m.Grows m') s m := by
  induction lengths generalizing m with
  | nil => exact ⟨rfl, .refl m, nofun, List.nodup_nil, fun b hb => absurd hb List.not_mem_nil, rfl⟩
  | cons head rest ih =>
    obtain ⟨device, n⟩ := head
    simp only [allocate, Task.ensures_bind, Task.ensures_ite, Task.ensures_pure]
    refine ⟨fun hzero => ?_, fun hn => ?_⟩
    -- no elements, no buffer
    · subst hzero
      refine ih.imp_ok ?_
      rintro shards s' m' ⟨hs, hgrows, howned, hnodup, hnew, hlengths⟩
      refine ⟨hs, hgrows, ?_, hnodup, hnew, by rw [List.map_cons, hlengths]⟩
      rintro s (_ | ⟨_, hs⟩)
      · exact ⟨⟨fun _ => rfl, fun _ => rfl⟩, nofun⟩
      · exact howned s hs
    · rw [map_eq_pure_bind, Task.ensures_bind, ensures_issue, Program.ensures_ask]
      refine ⟨trivial, fun r m₁ heffect => ⟨?_, ?_⟩⟩
      -- buffers allocated later are new then, so they differ from this one
      · rintro b rfl
        obtain ⟨hb, rfl⟩ := heffect
        have hgrows := Allocated.Grows.update hb ⟨device, n, type, access⟩
        rw [Task.ensures_pure]
        refine ih.imp ?_ fun e s' m' h => ⟨h.1, hgrows.trans h.2⟩
        rintro shards s' m' ⟨hs, hgrows', howned, hnodup, hnew, hlengths⟩
        have hmine : m' b = some ⟨device, n, type, access⟩ := hgrows' b _ (Function.update_self ..)
        refine ⟨hs, hgrows.trans hgrows', ?_, ?_, ?_, by rw [List.map_cons, hlengths]⟩
        · rintro s (_ | ⟨_, hs⟩)
          · exact ⟨by simp [hn], by rintro _ ⟨⟩; exact hmine⟩
          · exact howned s hs
        · rw [buffersOf_cons]
          refine List.nodup_cons.mpr ⟨fun hmem => ?_, hnodup⟩
          exact absurd (hnew b hmem) (by simp)
        · intro b' hb'
          rw [buffersOf_cons] at hb'
          rcases List.mem_cons.mp hb' with rfl | hb'
          · exact hb
          · exact hgrows.eq_none (hnew b' hb')
      · rintro e rfl
        exact ⟨rfl, heffect ▸ .refl m⟩

/-- A vector that has just been made for a request by a session. -/
structure Made (m : Allocated) (s : Session) (r : VectorRequest) (d : Descriptor) (m' : Allocated) :
    Prop where
  devices : d.devices = r.devices
  size : (d.size : Int) = r.size
  access : d.access = r.access
  type : typeFor r = .ok d.type
  owned : d.Owned m'
  new : ∀ b ∈ d.buffers, m b = none
  /-- the boundaries are those asked for, -/
  given : ∀ part, r.partition = some part → d.boundaries.map Int.ofNat = part
  /-- or those that the strategy in force has answered -/
  answered : r.partition = none → r.size ≠ 0 →
    s.Answers r.size r.devices (d.boundaries.map Int.ofNat)

variable {s : Session} {r : VectorRequest}

/-- The boundaries of a new vector are accepted ones, wherever they come from. -/
theorem boundariesFor_accepted (owner : SessionId) :
    (boundariesFor (Session.partition owner) r).Ensures .any
      (fun part _ _ => validatePartition part r.size r.devices.length = .ok () ∧
        (∀ given, r.partition = some given → part = given) ∧
        (r.partition = none → r.size ≠ 0 → s.Answers r.size r.devices part))
      (fun _ _ _ => True) s () := by
  unfold boundariesFor
  split
  next part hpart =>
    simp only [Task.ensures_bind, ensures_orFault, Task.ensures_pure]
    refine ⟨fun _ hvalid => ⟨hvalid, fun given h => ?_, fun h => ?_⟩, fun _ _ => trivial⟩
    · exact Option.some_inj.mp (hpart.symm.trans h)
    · cases hpart.symm.trans h
  next hnone =>
    simp only [Task.ensures_ite, Task.ensures_pure]
    refine ⟨fun hzero => ⟨?_, fun _ h => ?_, fun _ h => absurd hzero h⟩, fun _ => ?_⟩
    · rw [hzero]
      exact validatePartition_replicate_zero _
    · cases hnone.symm.trans h
    · refine (Session.partition_accepted owner).imp_ok ?_
      rintro part s' _ ⟨hanswers, hvalid⟩
      exact ⟨hvalid, fun _ h => (by cases hnone.symm.trans h), fun _ _ => hanswers⟩

/-- A new vector owns its buffers, which are new, and has the boundaries asked for. -/
theorem create_made (owner : SessionId) :
    (create (Session.partition owner) r).Ensures allocations
      (fun d _ m' => Made m s r d m' ∧ m.Grows m') (fun _ _ m' => m.Grows m') s m := by
  simp only [create, Task.ensures_bind, ensures_orFault]
  refine ⟨fun _ hcheck => ⟨fun type htype => ?_, fun _ _ => .refl m⟩, fun _ _ => .refl m⟩
  have hsize := size_of_checkRequest hcheck
  refine (boundariesFor_accepted owner).allocating.imp ?_ fun _ _ _ h => h.2
  rintro part s₁ m₁ ⟨⟨hvalid, hgiven, hanswered⟩, hgrows₁⟩
  obtain ⟨hlength, htotal⟩ := lengthsOf_of_validate hvalid
  refine allocate_owned.imp ?_ fun _ _ _ h => hgrows₁.trans h.2
  rintro shards _ m₂ ⟨-, hgrows₂, howned, hnodup, hnew, hlengths⟩
  have hgrows := hgrows₁.trans hgrows₂
  have hsizes : shards.map (·.length) = lengthsOf part := by
    have := congrArg (List.map Prod.snd) hlengths
    rwa [List.map_map, List.map_snd_zip (by omega)] at this
  have hdevices : shards.map (·.device) = r.devices := by
    have := congrArg (List.map Prod.fst) hlengths
    rwa [List.map_map, List.map_fst_zip (by omega)] at this
  -- the vector with its buffers, before anything is uploaded
  generalize hfresh : (⟨r.session, type, r.access, shards⟩ : Descriptor) = fresh
  have hboundaries : fresh.boundaries.map Int.ofNat = part := by
    rw [← boundariesOf_of_validate hvalid, ← hsizes, ← hfresh]
    rfl
  have hmade : Made m s r fresh m₂ := by
    refine ⟨hfresh ▸ hdevices, ?_, hfresh ▸ rfl, hfresh ▸ htype,
      hfresh ▸ ⟨howned, hnodup⟩, ?_, ?_, ?_⟩
    · rw [← htotal, ← hsizes, ← hfresh]
      rfl
    · exact hfresh ▸ fun b hb => hgrows₁.eq_none (hnew b hb)
    · exact fun given h => hboundaries.trans (hgiven given h)
    · exact fun hnone hne => hboundaries ▸ hanswered hnone hne
  split
  · exact ⟨hmade, hgrows⟩
  next data hhost =>
    -- the upload changes no more than events
    simp only [Task.ensures_bind, Task.ensures_runOn, Task.ensures_pure]
    refine ((write_within 0 r.size data true fresh).allocating).imp ?_ fun _ _ _ h =>
      hgrows.trans h.2
    rintro _ d m₃ ⟨hsame, hgrows₃⟩
    have hpart : d.boundaries = fresh.boundaries := Descriptor.boundaries_of_forget hsame
    refine ⟨⟨?_, ?_, ?_, ?_, (hmade.owned.mono hgrows₃).of_forget hsame, ?_, ?_, ?_⟩,
      hgrows.trans hgrows₃⟩
    · exact (Descriptor.devices_of_forget hsame).trans hmade.devices
    · rw [Descriptor.size_of_forget hsame, hmade.size]
    · exact (Descriptor.access_of_forget hsame).trans hmade.access
    · rw [Descriptor.type_of_forget hsame]
      exact hmade.type
    · rw [Descriptor.buffers_of_forget hsame]
      exact hmade.new
    · rw [hpart]
      exact hmade.given
    · rw [hpart]
      exact hmade.answered

end Vector

end DistributedVector
