import DistributedVector.Proofs.Launch
import DistributedVector.Proofs.Queueing

/-!
# Event slots

Each shard has a slot for the event of the last command on it. The slot covers the shard if no
pending command that stores into its buffer, or brings its elements to the host, stands behind the
command of the slot in the queue of the shard's device. Every task inside a vector keeps this, also
where it breaks off half way: transfers, copies and launches note the event of each command as soon
as it has been enqueued, and a command whose event is not noted is waited for at once.

If host arrays are guarded, a task that reads into an array and succeeds leaves no array being
filled, provided that it waits; no other task fills arrays.

## Main definitions

* `Shard.Covered` — the slot of a shard says enough
* `Descriptor.Moved` — what a task inside a vector may do to the vector and to the queues
* `Vector.Keeps` — tasks that do no more than that

## Main results

* `Shard.Covered.noted`, `Shard.Covered.waited` — commands whose event is noted, or that are waited
  for
* `Vector.write_keeps`, `Vector.readRange_keeps`, `Vector.dispatch_keeps` — tasks inside a vector
-/

namespace DistributedVector

variable {m : Allocated} {P P' P'' : List Pending} {p : Pending}

namespace Quiet

theorem refl (P : List Pending) : Quiet P P := fun _ _ h => h

theorem trans (h : Quiet P P') (h' : Quiet P' P'') : Quiet P P'' := fun c i hi => h c i (h' c i hi)

theorem of_subset (h : ∀ p ∈ P', p ∈ P) : Quiet P P' :=
  fun _ _ ⟨p, hp, hfills⟩ => ⟨p, h p hp, hfills⟩

theorem of_enqueued (h : Enqueued p P P') (hp : ∀ c i, ¬ p.command.Fills c i) : Quiet P P' := by
  rintro c i ⟨p', hp', hfills⟩
  rcases List.mem_append.mp (h.advances.mem p' hp') with hmem | hmem
  · exact ⟨p', hmem, hfills⟩
  · obtain rfl := List.mem_singleton.mp hmem
    exact absurd hfills (hp c i)

theorem free (h : Quiet P P') {view : HostView} (hview : view.Free P) : view.Free P' :=
  fun i hstart hstop hbusy => hview i hstart hstop (h view.cell i hbusy)

end Quiet

/-- Pending commands are about buffers that have been allocated. -/
def Held (m : Allocated) (P : List Pending) : Prop :=
  ∀ p ∈ P, ∀ b, p.command.Holds b → m b ≠ none

theorem Held.advances (h : Held m P) (ha : Advances P P') : Held m P' :=
  fun p hp => h p (ha.mem p hp)

theorem Held.enqueued (h : Held m P) (hp : Enqueued p P P')
    (hnew : ∀ b, p.command.Holds b → m b ≠ none) : Held m P' := by
  intro p' hp'
  rcases List.mem_append.mp (hp.advances.mem p' hp') with hmem | hmem
  · exact h p' hmem
  · obtain rfl := List.mem_singleton.mp hmem
    exact hnew

namespace Shard

variable {s : Shard}

/-- The slot of a shard says enough: a pending command that stores into the shard or brings its
elements to the host stands in the queue of its device, and no later than the command of the
slot. -/
def Covered (P : List Pending) (s : Shard) : Prop :=
  ∀ p ∈ P, ∀ b, s.buffer = some b → p.command.Holds b → p.device = s.device ∧
    ∃ p' ∈ P, p'.device = s.device ∧ s.event = some p'.event ∧ p.event.number ≤ p'.event.number

namespace Covered

/-- The command of the slot is carried out last. -/
theorem advances (h : s.Covered P) (ha : Advances P P') : s.Covered P' := by
  intro p hp b hb hholds
  obtain ⟨hdevice, p', hp', hdevice', hevent, hle⟩ := h p (ha.mem p hp) b hb hholds
  exact ⟨hdevice, p', ha.order p hp p' hp' (hdevice'.trans hdevice.symm) hle, hdevice', hevent, hle⟩

/-- A command on other buffers does not matter. -/
theorem enqueued (h : s.Covered P) (hp : Enqueued p P P')
    (hother : ∀ b, s.buffer = some b → ¬ p.command.Holds b) : s.Covered P' := by
  refine Covered.advances (P := P ++ [p]) (fun q hq b hb hholds => ?_) hp.advances
  rcases List.mem_append.mp hq with hmem | hmem
  · obtain ⟨hdevice, p', hp', hrest⟩ := h q hmem b hb hholds
    exact ⟨hdevice, p', List.mem_append_left _ hp', hrest⟩
  · obtain rfl := List.mem_singleton.mp hmem
    exact absurd hholds (hother b hb)

/-- A command whose event is noted stands behind all others on its device. -/
theorem noted (h : s.Covered P) (hp : Enqueued p P P') (hdevice : p.device = s.device) :
    Covered P' { s with event := some p.event } := by
  refine Covered.advances (P := P ++ [p]) (fun q hq b hb hholds => ?_) hp.advances
  have hlast : p ∈ P ++ [p] := List.mem_append_right _ List.mem_cons_self
  rcases List.mem_append.mp hq with hmem | hmem
  · exact ⟨(h q hmem b hb hholds).1, p, hlast, hdevice, rfl, Nat.le_of_lt (hp.last q hmem)⟩
  · obtain rfl := List.mem_singleton.mp hmem
    exact ⟨hdevice, q, hlast, hdevice, rfl, Nat.le_refl _⟩

/-- A command that has been waited for leaves the slots as they are. -/
theorem waited (h : s.Covered P) (hp : Enqueued p P P') (ha : Advances P' P'')
    (hgone : ∀ q ∈ P'', q.device = p.device → q.event ≠ p.event) : s.Covered P'' := by
  have hall := hp.advances.trans ha
  intro q hq b hb hholds
  have hmem : q ∈ P := (List.mem_append.mp (hall.mem q hq)).resolve_right fun hmem => by
    obtain rfl := List.mem_singleton.mp hmem
    exact hgone q hq rfl rfl
  obtain ⟨hdevice, p', hp', hdevice', hevent, hle⟩ := h q hmem b hb hholds
  exact ⟨hdevice, p', hall.order q hq p' (List.mem_append_left _ hp')
    (hdevice'.trans hdevice.symm) hle, hdevice', hevent, hle⟩

/-- Nothing is pending on a buffer that has been new. -/
theorem of_new (h : Held m P) (hnew : ∀ b, s.buffer = some b → m b = none) : s.Covered P :=
  fun p hp b hb hholds => absurd (hnew b hb) (h p hp b hholds)

end Covered

end Shard

namespace Descriptor

variable {d d' d'' : Descriptor} {x x' : Allocated × List Pending} {i : Nat} {device : DeviceId}
  {buffer : Option BufferId} {e : Event} {c : Call}

/-- A shard lies on a device and has a buffer. -/
def Has (d : Descriptor) (i : Nat) (device : DeviceId) (buffer : Option BufferId) : Prop :=
  ∃ s, d.shards[i]? = some s ∧ s.device = device ∧ s.buffer = buffer

theorem Has.of_forget (h : d.Has i device buffer) (hsame : d'.forget = d.forget) :
    d'.Has i device buffer := by
  obtain ⟨s, hs, hdevice, hbuffer⟩ := h
  have hget := congrArg (·[i]?) (map_shards_of_forget (f := fun s => (s.device, s.buffer)) hsame
    fun _ => rfl)
  simp only [List.getElem?_map, hs, Option.map_some] at hget
  obtain ⟨s', hs', heq⟩ := Option.map_eq_some_iff.mp hget
  obtain ⟨hdevice', hbuffer'⟩ := Prod.mk.inj heq
  exact ⟨s', hs', hdevice'.trans hdevice, hbuffer'.trans hbuffer⟩

/-- A buffer belongs to one shard. -/
theorem Owned.eq_of_buffer {j : Nat} {s s' : Shard} {b : BufferId} (h : d.Owned m)
    (hs : d.shards[i]? = some s) (hs' : d.shards[j]? = some s') (hb : s.buffer = some b)
    (hb' : s'.buffer = some b) : i = j := by
  have hpair := List.pairwise_filterMap.mp h.distinct
  obtain ⟨hi, rfl⟩ := List.getElem?_eq_some_iff.mp hs
  obtain ⟨hj, rfl⟩ := List.getElem?_eq_some_iff.mp hs'
  by_contra hne
  rcases Nat.lt_or_gt_of_ne hne with hlt | hlt
  · exact List.pairwise_iff_getElem.mp hpair i j hi hj hlt b hb b hb' rfl
  · exact List.pairwise_iff_getElem.mp hpair j i hj hi hlt b hb' b hb rfl

/-- The slots of a vector say enough. -/
def Covered (P : List Pending) (d : Descriptor) : Prop := ∀ s ∈ d.shards, s.Covered P

/-- A task inside a vector has changed events of the vector at most and has allocated nothing, slots
that said enough still do, and so do those of all shards that have other buffers. -/
structure Moved (m : Allocated) (P : List Pending) (d d' : Descriptor)
    (x : Allocated × List Pending) : Prop where
  same : d'.forget = d.forget
  memory : x.1 = m
  held : Held m P → Held m x.2
  covered : d.Covered P → d'.Covered x.2
  others : ∀ s : Shard, (∀ b, s.buffer = some b → b ∉ d.buffers) → s.Covered P → s.Covered x.2

namespace Moved

theorem refl (m : Allocated) (P : List Pending) (d : Descriptor) : Moved m P d d (m, P) :=
  ⟨rfl, rfl, id, id, fun _ _ => id⟩

theorem trans (h : Moved m P d d' x) (h' : Moved m x.2 d' d'' x') : Moved m P d d'' x' :=
  ⟨h'.same.trans h.same, h'.memory, fun hm => h'.held (h.held hm),
    fun hd => h'.covered (h.covered hd),
    fun s hs hcovered => h'.others s (by rwa [buffers_of_forget h.same]) (h.others s hs hcovered)⟩

theorem of_advances (d : Descriptor) (h : Advances P P') : Moved m P d d (m, P') :=
  ⟨rfl, rfl, fun hm => hm.advances h, fun hd s hs => (hd s hs).advances h,
    fun _ _ hcovered => hcovered.advances h⟩

/-- A command on the buffer of a shard that has been waited for. -/
theorem of_waited (howned : d.Owned m) (hhas : d.Has i device buffer)
    (hc : ∀ b, c.Holds b → buffer = some b) (hp : Enqueued ⟨device, e, c⟩ P P')
    (ha : Advances P' P'') (hgone : ∀ q ∈ P'', q.device = device → q.event ≠ e) :
    Moved m P d d (m, P'') := by
  obtain ⟨s, hs, -, rfl⟩ := hhas
  refine ⟨rfl, rfl, fun hm => (hm.enqueued hp fun b hb => ?_).advances ha,
    fun hd s hs => (hd s hs).waited hp ha hgone, fun _ _ hcovered => hcovered.waited hp ha hgone⟩
  simp [(howned.each s (List.mem_of_getElem? hs)).present b (hc b hb)]

/-- A command on the buffer of a shard whose event is noted. -/
theorem of_noted (howned : d.Owned m) (hhas : d.Has i device buffer)
    (hc : ∀ b, c.Holds b → buffer = some b) (hp : Enqueued ⟨device, e, c⟩ P P') :
    Moved m P d (d.setEvent i e) (m, P') := by
  obtain ⟨s, hs, rfl, rfl⟩ := hhas
  refine ⟨forget_setEvent i e, rfl, fun hm => hm.enqueued hp fun b hb => ?_, fun hd s' hs' => ?_,
    fun s' hs' hcovered => hcovered.enqueued hp fun b hb hholds =>
      hs' b hb (mem_buffersOf.mpr ⟨s, List.mem_of_getElem? hs, hc b hholds⟩)⟩
  · simp [(howned.each s (List.mem_of_getElem? hs)).present b (hc b hb)]
  · obtain ⟨j, hj⟩ := List.mem_iff_getElem?.mp hs'
    simp only [setEvent, List.getElem?_modify] at hj
    split at hj
    next heq =>
      -- the shard of the command
      subst heq
      rw [hs] at hj
      cases hj
      exact (hd s (List.mem_of_getElem? hs)).noted hp rfl
    next hne =>
      -- any other shard has another buffer
      have hj : d.shards[j]? = some s' := by simpa using hj
      exact (hd s' (List.mem_of_getElem? hj)).enqueued hp fun b hb hholds =>
        hne (howned.eq_of_buffer hs hj (hc b hholds) hb)

end Moved

end Descriptor

/-- A command has been enqueued, or has failed. -/
def Accepted (m : Allocated) (P : List Pending) (device : DeviceId) (c : Call) :
    Except DeviceFault Event → Allocated × List Pending → Prop
  | .ok e, x => x.1 = m ∧ Enqueued ⟨device, e, c⟩ P x.2
  | .error _, x => x.1 = m ∧ Advances P x.2

section Commands

variable {guarded : Prop} {device : DeviceId} {b : Option BufferId}

theorem ask_write {offset : Int} {shape : List Nat} {data : Array Scalar} :
    (Program.ask (.write device b offset shape data)).Ensures (queueing guarded)
      (Accepted m P device (.write device b offset shape data)) (m, P) := by
  refine ⟨fun _ => trivial, ?_⟩
  rintro (e | e) ⟨m', P'⟩ ⟨hm, hP, -⟩ <;> exact ⟨hm, hP⟩

theorem ask_read {offset : Int} {count cellOffset : Nat} {cell : CellId}
    (hcareful : guarded → (Call.read device b offset count cell cellOffset).Careful P) :
    (Program.ask (.read device b offset count cell cellOffset)).Ensures (queueing guarded)
      (Accepted m P device (.read device b offset count cell cellOffset)) (m, P) := by
  refine ⟨hcareful, ?_⟩
  rintro (e | e) ⟨m', P'⟩ ⟨hm, hP, -⟩ <;> exact ⟨hm, hP⟩

theorem ask_copy {source : Option BufferId} {count : Nat} {sourceOffset targetOffset : Int} :
    (Program.ask (.copy device source b count sourceOffset targetOffset)).Ensures (queueing guarded)
      (Accepted m P device (.copy device source b count sourceOffset targetOffset)) (m, P) := by
  refine ⟨fun _ => trivial, ?_⟩
  rintro (e | e) ⟨m', P'⟩ ⟨hm, hP, -⟩ <;> exact ⟨hm, hP⟩

theorem ask_launch {source : KernelSource} {grid workgroup : Int} {args : List Argument} :
    (Program.ask (.launch device source grid workgroup args)).Ensures (queueing guarded)
      (Accepted m P device (.launch device source grid workgroup args)) (m, P) := by
  refine ⟨fun _ => trivial, ?_⟩
  rintro (e | e) ⟨m', P'⟩ ⟨hm, hP, -⟩ <;> exact ⟨hm, hP⟩

end Commands

namespace Vector

variable {α β τ : Type} {guarded : Prop} {d : Descriptor}

/-- From here, a task does no more than it may; if host arrays are guarded, it is careful, and
leaves no array to be filled if it succeeds. -/
def KeepsFrom (guarded : Prop) (d : Descriptor) (m : Allocated) (P : List Pending)
    (t : Task Descriptor α) : Prop :=
  t.Ensures (queueing guarded) (fun _ d' x => d.Moved m P d' x ∧ (guarded → Quiet P x.2))
    (fun _ d' x => d.Moved m P d' x) d (m, P)

/-- A task inside a vector does no more than it may, whatever is pending. -/
def Keeps (guarded : Prop) (t : Task Descriptor α) : Prop :=
  ∀ d m P, d.Owned m → KeepsFrom guarded d m P t

section Rules

theorem keepsFrom_self {a : α} : KeepsFrom guarded d m P (pure a : Task Descriptor α) :=
  ⟨.refl m P d, fun _ => .refl P⟩

theorem keeps_pure (a : α) : Keeps guarded (pure a : Task Descriptor α) :=
  fun _ _ _ _ => keepsFrom_self

theorem keeps_get : Keeps guarded (get : Task Descriptor Descriptor) :=
  fun d m P _ => ⟨.refl m P d, fun _ => .refl P⟩

theorem keeps_orFault {ε : Type} (f : ε → Fault) (r : Except ε α) :
    Keeps guarded (orFault f r : Task Descriptor α) := fun d m P _ =>
  ensures_orFault.mpr ⟨fun _ _ => ⟨.refl m P d, fun _ => .refl P⟩, fun _ _ => .refl m P d⟩

theorem KeepsFrom.ite {c : Prop} [Decidable c] {t u : Task Descriptor α}
    (ht : KeepsFrom guarded d m P t) (hu : KeepsFrom guarded d m P u) :
    KeepsFrom guarded d m P (if c then t else u) := by
  split
  · exact ht
  · exact hu

theorem Keeps.ite {c : Prop} [Decidable c] {t u : Task Descriptor α} (ht : Keeps guarded t)
    (hu : Keeps guarded u) : Keeps guarded (if c then t else u) :=
  fun d m P howned => .ite (ht d m P howned) (hu d m P howned)

/-- What a task does after devices have done no more than they may. -/
theorem KeepsFrom.after {d' : Descriptor} {t : Task Descriptor α} (hmoved : d.Moved m P d' (m, P'))
    (hquiet : guarded → Quiet P P') (ht : KeepsFrom guarded d' m P' t) :
    t.Ensures (queueing guarded) (fun _ d'' x => d.Moved m P d'' x ∧ (guarded → Quiet P x.2))
      (fun _ d'' x => d.Moved m P d'' x) d' (m, P') :=
  ht.imp (fun _ _ _ h => ⟨hmoved.trans h.1, fun hg => (hquiet hg).trans (h.2 hg)⟩)
    fun _ _ _ h => hmoved.trans h

theorem KeepsFrom.bind {t : Task Descriptor α} {g : α → Task Descriptor β}
    (ht : KeepsFrom guarded d m P t)
    (hg : ∀ a d' P', d'.forget = d.forget → KeepsFrom guarded d' m P' (g a)) :
    KeepsFrom guarded d m P (t >>= g) := by
  rw [KeepsFrom, Task.ensures_bind]
  refine ht.imp_ok ?_
  rintro a d' ⟨m', P'⟩ ⟨hmoved, hquiet⟩
  obtain rfl : m' = m := hmoved.memory
  exact (hg a d' P' hmoved.same).after hmoved hquiet

theorem Keeps.bind {t : Task Descriptor α} {g : α → Task Descriptor β} (ht : Keeps guarded t)
    (hg : ∀ a, Keeps guarded (g a)) : Keeps guarded (t >>= g) := fun d m P howned =>
  (ht d m P howned).bind fun a d' P' hsame => hg a d' m P' (howned.of_forget hsame)

/-- A task that depends on the vector. -/
theorem Keeps.get_bind {g : Descriptor → Task Descriptor β}
    (hg : ∀ d m P, d.Owned m → KeepsFrom guarded d m P (g d)) :
    Keeps guarded ((get : Task Descriptor Descriptor) >>= g) := fun d m P howned => by
  rw [KeepsFrom, Task.ensures_bind, Task.ensures_get]
  exact hg d m P howned

theorem keeps_synchronize (device : DeviceId) :
    Keeps guarded (issue (Program.ask (.synchronize device))) := by
  intro d m P _
  rw [KeepsFrom, ensures_issue]
  refine ⟨fun _ => trivial, ?_⟩
  rintro (e | ⟨⟩) ⟨m', P'⟩ ⟨hm, hP, -⟩ <;> obtain rfl : m' = m := hm
  · exact ⟨nofun, fun _ _ => .of_advances d hP⟩
  · exact ⟨fun _ _ => ⟨.of_advances d hP.1, fun _ => .of_subset hP.1.mem⟩, nofun⟩

/-- What a view shows may be looked at if nothing is about to be stored there. -/
theorem contents_quiet {view : HostView} {s : τ}
    {good : HostData → τ → Allocated × List Pending → Prop}
    {bad : Fault → τ → Allocated × List Pending → Prop} (hview : guarded → view.Free P)
    (h : ∀ data P', Advances P P' → good data s (m, P')) :
    (contents view : Task τ HostData).Ensures (queueing guarded) good bad s (m, P) := by
  rw [contents, Task.ensures_bind, Task.ensures_perform]
  refine ⟨hview, ?_⟩
  rintro r ⟨m', P'⟩ ⟨hm, hP, -⟩
  obtain rfl : m' = m := hm
  exact h _ P' hP

/-- Nothing is about to be stored into a new array. -/
theorem newArray_quiet {type : ElementType} {count : Nat} {s : τ}
    {good : HostView → τ → Allocated × List Pending → Prop}
    {bad : Fault → τ → Allocated × List Pending → Prop}
    (h : ∀ cell P', Advances P P' → (guarded → ∀ i, ¬ Busy P' cell i) →
      good ⟨cell, 0, .element type, [count], true, true⟩ s (m, P')) :
    (newArray type count : Task τ HostView).Ensures (queueing guarded) good bad s (m, P) := by
  rw [newArray, Task.ensures_bind, Task.ensures_perform]
  refine ⟨fun _ => trivial, ?_⟩
  rintro cell ⟨m', P'⟩ ⟨hm, hP, hnew⟩
  obtain rfl : m' = m := hm
  exact h cell P' hP fun hg i hbusy => hnew hg i (Quiet.of_subset hP.mem cell i hbusy)

/-- A command on a shard whose event is noted. -/
theorem ensures_noted {i : Nat} {device : DeviceId} {buffer : Option BufferId} {c : Call}
    {p : Program (Except DeviceFault Event)}
    {good : PUnit → Descriptor → Allocated × List Pending → Prop}
    {bad : Fault → Descriptor → Allocated × List Pending → Prop}
    (hp : p.Ensures (queueing guarded) (Accepted m P device c) (m, P)) (howned : d.Owned m)
    (hhas : d.Has i device buffer) (hc : ∀ b, c.Holds b → buffer = some b)
    (hgood : ∀ e P', Enqueued ⟨device, e, c⟩ P P' → d.Moved m P (d.setEvent i e) (m, P') →
      good ⟨⟩ (d.setEvent i e) (m, P'))
    (hbad : ∀ e P', d.Moved m P d (m, P') → bad (.device e) d (m, P')) :
    (issue p >>= fun e => modify (·.setEvent i e)).Ensures (queueing guarded) good
      bad d (m, P) := by
  simp only [Task.ensures_bind, Task.ensures_modify, ensures_issue]
  refine hp.imp ?_
  rintro (e | e) ⟨m', P'⟩ ⟨hm, hP⟩ <;> obtain rfl : m' = m := hm
  · refine ⟨fun _ he => ?_, fun e' _ => hbad e' P' (.of_advances d hP)⟩
    cases he
  · refine ⟨fun e' he => ?_, fun _ he => by cases he⟩
    cases he
    exact hgood e P' hP (.of_noted howned hhas hc hP)

/-- A command on a shard that is waited for. -/
theorem ensures_waited {i : Nat} {device : DeviceId} {buffer : Option BufferId} {c : Call}
    {p : Program (Except DeviceFault Event)}
    {good : Unit → Descriptor → Allocated × List Pending → Prop}
    {bad : Fault → Descriptor → Allocated × List Pending → Prop}
    (hp : p.Ensures (queueing guarded) (Accepted m P device c) (m, P)) (howned : d.Owned m)
    (hhas : d.Has i device buffer) (hc : ∀ b, c.Holds b → buffer = some b)
    (hgood : ∀ P', d.Moved m P d (m, P') → (∀ q ∈ P', q ∈ P) → good () d (m, P'))
    (hbad : ∀ e P', d.Moved m P d (m, P') → bad (.device e) d (m, P')) :
    (issue p >>= fun e => issue (Program.ask (.wait device e))).Ensures
    (queueing guarded) good bad d
      (m, P) := by
  simp only [Task.ensures_bind, ensures_issue]
  refine hp.imp ?_
  rintro (e | e) ⟨m₁, P₁⟩ ⟨hm, hP⟩ <;> obtain rfl : m₁ = m := hm
  · refine ⟨fun _ he => ?_, fun e' _ => hbad e' P₁ (.of_advances d hP)⟩
    cases he
  · -- a wait that follows at once takes the command out of the queue again
    refine ⟨fun e' he => ?_, fun _ he => by cases he⟩
    cases he
    refine ⟨fun _ => trivial, ?_⟩
    rintro r ⟨m₂, P₂⟩ ⟨hm, ⟨rfl, ha, hgone⟩, -⟩
    obtain rfl : m₂ = m₁ := hm
    refine ⟨fun _ _ => hgood P₂ (.of_waited howned hhas hc hP ha hgone) fun q hq => ?_,
      fun _ he => by cases he⟩
    refine (List.mem_append.mp ((hP.advances.trans ha).mem q hq)).resolve_right fun hmem => ?_
    obtain rfl := List.mem_singleton.mp hmem
    exact hgone _ hq rfl rfl

theorem KeepsFrom.noted {i : Nat} {device : DeviceId} {buffer : Option BufferId} {c : Call}
    {p : Program (Except DeviceFault Event)}
    (hp : p.Ensures (queueing guarded) (Accepted m P device c) (m, P)) (howned : d.Owned m)
    (hhas : d.Has i device buffer) (hc : ∀ b, c.Holds b → buffer = some b)
    (hfills : ∀ cell k, ¬ c.Fills cell k) :
    KeepsFrom guarded d m P (issue p >>= fun e => modify (·.setEvent i e)) :=
  ensures_noted hp howned hhas hc
    (fun _ _ hP hmoved => ⟨hmoved, fun _ => .of_enqueued hP hfills⟩) fun _ _ h => h

end Rules

/-! ## Transfers -/

section Pieces

variable {offset count index start : Nat} {shards : List Shard} {p : Piece}

/-- A piece of a range lies in the range and on a shard. -/
theorem mem_piecesFrom (hp : p ∈ piecesFrom offset count index start shards) :
    start ≤ offset + p.rangeOffset ∧ p.rangeOffset + p.count ≤ count ∧
      ∃ k s, p.shard = index + k ∧ shards[k]? = some s ∧ s.device = p.device ∧
      s.buffer = p.buffer := by
  induction shards generalizing index start with
  | nil => simp [piecesFrom] at hp
  | cons s rest ih =>
    have hothers (hp : p ∈ piecesFrom offset count (index + 1) (start + s.length) rest) :
        start ≤ offset + p.rangeOffset ∧ p.rangeOffset + p.count ≤ count ∧
          ∃ k s', p.shard = index + k ∧ (s :: rest)[k]? = some s' ∧
            s'.device = p.device ∧ s'.buffer = p.buffer := by
      obtain ⟨hstart, hstop, k, s', hk, hs', hrest⟩ := ih hp
      exact ⟨by omega, hstop, k + 1, s', by omega, by simpa using hs', hrest⟩
    simp only [piecesFrom] at hp
    split at hp
    · rcases List.mem_cons.mp hp with rfl | hp
      · exact ⟨by dsimp only; omega, by dsimp only; omega, 0, s, rfl, rfl, rfl, rfl⟩
      · exact hothers hp
    · exact hothers hp

/-- The pieces of a range lie on different shards and follow one another in the range. -/
theorem pairwise_piecesFrom : (piecesFrom offset count index start shards).Pairwise fun p p' =>
    p.shard ≠ p'.shard ∧ p.rangeOffset + p.count ≤ p'.rangeOffset := by
  induction shards generalizing index start with
  | nil => exact .nil
  | cons s rest ih =>
    simp only [piecesFrom]
    split
    · refine List.pairwise_cons.mpr ⟨fun p hp => ?_, ih⟩
      obtain ⟨hstart, -, k, -, hk, -⟩ := mem_piecesFrom hp
      dsimp only
      omega
    · exact ih

theorem has_of_mem_pieces (hp : p ∈ d.pieces offset count) : d.Has p.shard p.device p.buffer := by
  obtain ⟨-, -, k, s, hk, hs, hrest⟩ := mem_piecesFrom hp
  exact ⟨s, by rwa [hk, Nat.zero_add], hrest⟩

end Pieces

theorem startWrites_keeps {data : Array Scalar} {pieces : List Piece} (howned : d.Owned m)
    (hin : ∀ p ∈ pieces, d.Has p.shard p.device p.buffer) :
    KeepsFrom guarded d m P (startWrites data pieces) := by
  induction pieces generalizing d P with
  | nil => exact keepsFrom_self
  | cons p rest ih =>
    rw [startWrites, ← bind_assoc]
    refine (KeepsFrom.noted ask_write howned (hin p List.mem_cons_self) (fun _ hb => hb)
      fun _ _ h => h).bind fun _ d' P' hsame => ?_
    exact ih (howned.of_forget hsame) fun p' hp' =>
      (hin p' (List.mem_cons_of_mem _ hp')).of_forget hsame

/-- Waiting for pieces never fails, and the commands in their slots have been carried out then. -/
theorem waitFor_gone (pieces : List Piece) : (waitFor pieces).Ensures (queueing guarded)
    (fun _ d' x => d' = d ∧ x.1 = m ∧ Advances P x.2 ∧ ∀ q ∈ x.2, ∀ p ∈ pieces,
      q.device = p.device → d.event? p.shard ≠ some q.event)
    (fun _ _ _ => False) d (m, P) := by
  induction pieces generalizing P with
  | nil => exact ⟨rfl, rfl, .refl P, fun _ _ _ h => absurd h List.not_mem_nil⟩
  | cons p rest ih =>
    simp only [waitFor, Task.ensures_bind, Task.ensures_get]
    split
    next e he =>
      rw [Task.ensures_bind, ensures_issue]
      refine ⟨fun _ => trivial, ?_⟩
      rintro r ⟨m', P'⟩ ⟨hm, ⟨rfl, ha, hgone⟩, -⟩
      obtain rfl : m' = m := hm
      -- what is gone after the first wait stays gone, since nothing is enqueued in between
      refine ⟨fun _ _ => ih.imp ?_ fun _ _ _ h => h, nofun⟩
      rintro _ d' x ⟨rfl, hm, ha', hrest⟩
      refine ⟨rfl, hm, ha.trans ha', fun q hq p' hp' hdevice hevent => ?_⟩
      rcases List.mem_cons.mp hp' with rfl | hp'
      · exact hgone q (ha'.mem q hq) hdevice (Option.some_inj.mp (hevent.symm.trans he))
      · exact hrest q hq p' hp' hdevice hevent
    next hnone =>
      refine ih.imp_ok ?_
      rintro _ d' x ⟨rfl, hm, ha, hrest⟩
      refine ⟨rfl, hm, ha, fun q hq p' hp' hdevice hevent => ?_⟩
      rcases List.mem_cons.mp hp' with rfl | hp'
      · cases hnone.symm.trans hevent
      · exact hrest q hq p' hp' hdevice hevent

theorem waitFor_keeps (pieces : List Piece) : Keeps guarded (waitFor pieces) := by
  intro d m P _
  refine (waitFor_gone pieces).imp ?_ fun _ _ _ h => h.elim
  rintro _ d' ⟨m', P'⟩ ⟨rfl, hm, ha, -⟩
  obtain rfl : m' = m := hm
  exact ⟨.of_advances d' ha, fun _ => .of_subset ha.mem⟩

theorem checkRange_keeps (offset count : Int) : Keeps guarded (checkRange offset count) :=
  keeps_get.bind fun _ => keeps_orFault _ _

theorem write_keeps (offset count : Int) (data : HostData) (blocking : Bool) :
    Keeps guarded (write offset count data blocking) := by
  refine .ite (keeps_pure _) ((checkRange_keeps _ _).bind fun _ => .get_bind fun d m P howned => ?_)
  have hstart : ∀ values : Array Scalar, KeepsFrom guarded d m P (do
      startWrites values (d.pieces offset.toNat count.toNat)
      if blocking then waitFor (d.pieces offset.toNat count.toNat)) := by
    intro values
    exact (startWrites_keeps howned fun p hp => has_of_mem_pieces hp).bind fun _ d' P' hsame =>
      Keeps.ite (waitFor_keeps _) (keeps_pure _) d' m P' (howned.of_forget hsame)
  rw [KeepsFrom, Task.ensures_bind, ensures_orFault]
  exact ⟨fun values _ => KeepsFrom.ite (.refl m P d) (hstart values), fun _ _ => .refl m P d⟩

section Reads

variable {view : HostView} {pieces : List Piece}

/-- The slot of a shard after a command on it has been noted. -/
theorem event?_setEvent_self {i : Nat} {device : DeviceId} {buffer : Option BufferId} (e : Event)
    (hhas : d.Has i device buffer) : (d.setEvent i e).event? i = some e := by
  obtain ⟨s, hs, -, -⟩ := hhas
  simp [Descriptor.setEvent, Descriptor.event?, hs]

theorem event?_setEvent_of_ne {i j : Nat} (e : Event) (h : i ≠ j) :
    (d.setEvent i e).event? j = d.event? j := by
  simp [Descriptor.setEvent, Descriptor.event?, h]

/-- The commands of a read go to different places, and each of them is the last one on its shard. -/
theorem startReads_moved {start stop : Nat} (howned : d.Owned m)
    (hin : ∀ p ∈ pieces, d.Has p.shard p.device p.buffer ∧ start ≤ view.offset + p.rangeOffset ∧
      view.offset + p.rangeOffset + p.count ≤ stop)
    (horder : pieces.Pairwise fun p p' => p.shard ≠ p'.shard ∧
      p.rangeOffset + p.count ≤ p'.rangeOffset)
    (hfree : guarded → Free P view.cell start stop) :
    (startReads view pieces).Ensures (queueing guarded)
      (fun _ d' x => d.Moved m P d' x ∧ (∀ q ∈ x.2, q ∈ P ∨
        ∃ p ∈ pieces, q.device = p.device ∧ d'.event? p.shard = some q.event) ∧
        ∀ k, (∀ p ∈ pieces, p.shard ≠ k) → d'.event? k = d.event? k)
      (fun _ d' x => d.Moved m P d' x) d (m, P) := by
  induction pieces generalizing d P start with
  | nil => exact ⟨.refl m P d, fun q hq => .inl hq, fun _ _ => rfl⟩
  | cons p rest ih =>
    obtain ⟨hhas, hstart, hstop⟩ := hin p List.mem_cons_self
    obtain ⟨hp, hrest⟩ := List.pairwise_cons.mp horder
    rw [startReads, ← bind_assoc, Task.ensures_bind]
    refine ensures_noted (ask_read fun hg q hq _ i hi hi' hfills => ?_) howned hhas (fun _ hb => hb)
      (fun e P' hP hmoved => ?_) fun _ _ h => h
    · exact hfree hg i (by omega) (by omega) ⟨q, hq, hfills⟩
    have hsame := d.forget_setEvent p.shard e
    -- behind this piece nothing else is about to be stored
    have hfree' : guarded → Free P' view.cell (view.offset + p.rangeOffset + p.count) stop := by
      rintro hg i hi hi' ⟨q, hq, hfills⟩
      rcases List.mem_append.mp (hP.advances.mem q hq) with hmem | hmem
      · exact hfree hg i (by omega) hi' ⟨q, hmem, hfills⟩
      · obtain rfl := List.mem_singleton.mp hmem
        obtain ⟨-, -, hlt⟩ := hfills
        omega
    refine (ih (howned.of_forget hsame) (fun p' hp' => ?_) hrest hfree').imp ?_
      fun _ _ _ h => hmoved.trans h
    · obtain ⟨hhas', -, hstop'⟩ := hin p' (List.mem_cons_of_mem _ hp')
      have := (hp p' hp').2
      exact ⟨hhas'.of_forget hsame, by omega, hstop'⟩
    · rintro _ d' x ⟨hmoved', hpending, hothers⟩
      have hmine : d'.event? p.shard = some e := by
        rw [hothers p.shard fun p' hp' => (hp p' hp').1.symm, event?_setEvent_self e hhas]
      refine ⟨hmoved.trans hmoved', fun q hq => ?_, fun k hk => ?_⟩
      · rcases hpending q hq with hmem | ⟨p', hp', hq'⟩
        · rcases List.mem_append.mp (hP.advances.mem q hmem) with hold | hnew
          · exact .inl hold
          · obtain rfl := List.mem_singleton.mp hnew
            exact .inr ⟨p, List.mem_cons_self, rfl, hmine⟩
        · exact .inr ⟨p', List.mem_cons_of_mem _ hp', hq'⟩
      · rw [hothers k fun p' hp' => hk p' (List.mem_cons_of_mem _ hp'),
          event?_setEvent_of_ne e (hk p List.mem_cons_self)]

/-- A read that waits leaves nothing new behind in the queues. -/
theorem readInto_moved (offset count : Int) (blocking : Bool) (howned : d.Owned m)
    (hfree : guarded → view.Free P) : (readInto offset count blocking view).Ensures
    (queueing guarded)
      (fun w d' x => w = view ∧ d.Moved m P d' x ∧ (blocking = true → ∀ q ∈ x.2, q ∈ P))
      (fun _ d' x => d.Moved m P d' x) d (m, P) := by
  have hself : d.Moved m P d (m, P) := .refl m P d
  simp only [readInto, checkRange, Task.ensures_bind, Task.ensures_get, Task.ensures_ite,
    Task.ensures_pure, Task.ensures_throw, ensures_orFault]
  refine ⟨fun _ => ⟨trivial, hself, fun _ _ => id⟩, fun _ => ⟨fun _ _ => ⟨fun _ => hself,
    fun henough => ?_⟩, fun _ _ => hself⟩⟩
  have hrange : guarded → Free P view.cell view.offset (view.offset + view.size) := hfree
  refine (startReads_moved howned (fun p hp => ?_) pairwise_piecesFrom hrange).imp_ok ?_
  · obtain ⟨-, hcount, -⟩ := mem_piecesFrom hp
    exact ⟨has_of_mem_pieces hp, by omega, by omega⟩
  · rintro _ d' ⟨m', P'⟩ ⟨hmoved, hpending, -⟩
    obtain rfl : m' = m := hmoved.memory
    refine ⟨fun _ => (waitFor_gone _).imp ?_ fun _ _ _ h => h.elim,
      fun hblocking => ⟨trivial, hmoved, fun h => absurd h hblocking⟩⟩
    rintro _ d'' ⟨m'', P''⟩ ⟨rfl, hm, ha, hgone⟩
    obtain rfl : m'' = m' := hm
    refine ⟨trivial, hmoved.trans (.of_advances d'' ha), fun _ q hq => ?_⟩
    rcases hpending q (ha.mem q hq) with hold | ⟨p, hp, hdevice, hevent⟩
    · exact hold
    · exact absurd hevent (hgone q hq p hp hdevice)

/-- A read goes to an array that nothing else is about to be stored into. If it waits, then nothing
is about to be stored there afterwards. -/
theorem read_moved (offset count : Int) {goal : ReadTarget} (blocking : Bool) (howned : d.Owned m)
    (hgoal : guarded → ∀ view, goal = .array view → view.Free P) :
    (read offset count goal blocking).Ensures (queueing guarded)
      (fun view d' x => d.Moved m P d' x ∧
        (blocking = true → guarded → Quiet P x.2 ∧ view.Free x.2))
      (fun _ d' x => d.Moved m P d' x) d (m, P) := by
  -- what follows the choice of the array, when devices may have gone on
  have hinto : ∀ view P', Advances P P' → (guarded → view.Free P') →
      (readInto offset count blocking view).Ensures (queueing guarded)
        (fun view d' x => d.Moved m P d' x ∧
          (blocking = true → guarded → Quiet P x.2 ∧ view.Free x.2))
        (fun _ d' x => d.Moved m P d' x) d (m, P') := by
    intro view P' ha hfree
    have hmoved : d.Moved m P d (m, P') := .of_advances d ha
    refine (readInto_moved offset count blocking howned hfree).imp ?_ fun _ _ _ h => hmoved.trans h
    rintro _ d' x ⟨rfl, hmoved', hpending⟩
    refine ⟨hmoved.trans hmoved', fun hblocking hg => ?_⟩
    have hquiet : Quiet P' x.2 := .of_subset (hpending hblocking)
    exact ⟨(Quiet.of_subset ha.mem).trans hquiet, hquiet.free (hfree hg)⟩
  simp only [read_eq, Task.ensures_bind, Task.ensures_get]
  cases goal with
  | fresh =>
    simp only [target, Task.ensures_bind, Task.ensures_ite, Task.ensures_throw]
    exact ⟨fun _ => .refl m P d, fun _ => newArray_quiet fun cell P' ha hfree =>
      hinto _ P' ha fun hg i _ _ => hfree hg i⟩
  | array view =>
    simp only [target, Task.ensures_bind, Task.ensures_ite, Task.ensures_throw, Task.ensures_pure]
    exact ⟨fun _ => hinto view P (.refl P) fun hg => hgoal hg view rfl, fun _ => .refl m P d⟩
  | unsuitable => exact .refl m P d

end Reads

theorem readRange_keeps (offset count : Int) : Keeps guarded (readRange offset count) := by
  intro d m P howned
  rw [KeepsFrom, readRange, Task.ensures_bind]
  refine (read_moved offset count true howned fun _ _ h => by cases h).imp_ok ?_
  rintro view d' ⟨m', P'⟩ ⟨hmoved, hquiet⟩
  obtain rfl : m' = m := hmoved.memory
  refine contents_quiet (fun hg => (hquiet rfl hg).2) fun data P'' ha => ?_
  exact ⟨hmoved.trans (.of_advances d' ha), fun hg => (hquiet rfl hg).1.trans (.of_subset ha.mem)⟩

theorem readAll_keeps : Keeps guarded readAll := keeps_get.bind fun _ => readRange_keeps _ _

theorem drain_keeps (devices : List DeviceId) : Keeps guarded (drain devices) := by
  induction devices with
  | nil => exact keeps_pure ()
  | cons d rest ih => exact (keeps_synchronize d).bind fun _ => ih

theorem synchronize_keeps : Keeps guarded synchronize := keeps_get.bind fun _ => drain_keeps _

/-- Nothing is pending on devices that have been waited for. -/
theorem drain_empties {τ : Type} {s : τ} (devices : List DeviceId) :
    (drain devices : Task τ Unit).Ensures (queueing guarded)
      (fun _ s' x => s' = s ∧ Advances P x.2 ∧ ∀ p ∈ x.2, p.device ∉ devices)
      (fun _ s' _ => s' = s) s (m, P) := by
  induction devices generalizing P with
  | nil => exact ⟨rfl, .refl P, fun _ _ => List.not_mem_nil⟩
  | cons device rest ih =>
    rw [drain, Task.ensures_bind, ensures_issue]
    refine ⟨fun _ => trivial, ?_⟩
    rintro (e | ⟨⟩) ⟨m', P'⟩ ⟨hm, hP, -⟩ <;> obtain rfl : m' = m := hm
    · exact ⟨fun _ he => (by cases he), fun _ _ => rfl⟩
    · refine ⟨fun _ _ => ih.imp ?_ fun _ _ _ h => h, fun _ he => by cases he⟩
      rintro - s' x ⟨rfl, ha, hrest⟩
      refine ⟨rfl, hP.1.trans ha, fun p hp hmem => ?_⟩
      rcases List.mem_cons.mp hmem with hdevice | hmem
      · exact hP.2 p (ha.mem p hp) hdevice
      · exact hrest p hp hmem

/-- A task on a shard by number. -/
theorem shard_keeps {index : Nat} {g : Shard → Task Descriptor β}
    (hg : ∀ d m P s, d.Owned m → d.Has index s.device s.buffer → KeepsFrom guarded d m P (g s)) :
    Keeps guarded (shard index >>= g) := by
  rw [shard, bind_assoc]
  refine .get_bind fun d m P howned => ?_
  split
  next s hs => exact hg d m P s howned ⟨s, hs, rfl, rfl⟩
  · exact .refl m P d

theorem readElement_keeps (index : Nat) (position : Int) :
    Keeps guarded (readElement index position) := by
  refine shard_keeps fun d m P s howned hhas => ?_
  rw [KeepsFrom, Task.ensures_bind, Task.ensures_get, Task.ensures_bind]
  refine newArray_quiet fun cell P₁ ha hfree => ?_
  have hmoved₁ : d.Moved m P d (m, P₁) := .of_advances d ha
  rw [← bind_assoc, Task.ensures_bind]
  refine ensures_waited (ask_read fun hg q hq _ i _ _ hfills =>
    hfree hg i ⟨q, hq, hfills⟩) howned hhas
    (fun _ hb => hb) (fun P₂ hmoved₂ hsubset => ?_) fun _ _ h => hmoved₁.trans h
  have hquiet₂ : Quiet P₁ P₂ := .of_subset hsubset
  rw [Task.ensures_bind]
  refine contents_quiet (fun hg => hquiet₂.free fun i _ _ => hfree hg i) fun data P₃ ha₃ => ?_
  exact ⟨hmoved₁.trans (hmoved₂.trans (.of_advances d ha₃)),
    fun _ => (Quiet.of_subset ha.mem).trans (hquiet₂.trans (.of_subset ha₃.mem))⟩

theorem writeElements_keeps (index : Nat) (position : Int) (data : HostData) :
    Keeps guarded (writeElements index position data) := by
  refine shard_keeps fun d m P s howned hhas => ?_
  exact ensures_waited ask_write howned hhas (fun _ hb => hb)
    (fun P' hmoved hsubset => ⟨hmoved, fun _ => .of_subset hsubset⟩) fun _ _ h => h

/-! ## Copies and launches -/

theorem copyShards_keeps {index : Nat} {pairs : List (Shard × Shard)} (howned : d.Owned m)
    (hin : ∀ k p, pairs[k]? = some p → d.Has (index + k) p.2.device p.2.buffer) :
    KeepsFrom guarded d m P (copyShards index pairs) := by
  induction pairs generalizing d P index with
  | nil => exact keepsFrom_self
  | cons p rest ih =>
    have hrest : ∀ {d' : Descriptor}, d'.forget = d.forget → ∀ k p, rest[k]? = some p →
        d'.Has (index + 1 + k) p.2.device p.2.buffer := fun hsame k p hp => by
      rw [Nat.add_right_comm]
      exact (hin (k + 1) p hp).of_forget hsame
    rw [copyShards]
    refine .ite (ih howned (hrest rfl)) ?_
    rw [← bind_assoc]
    exact (KeepsFrom.noted ask_copy howned (hin 0 p rfl) (fun _ hb => hb) fun _ _ h => h).bind
      fun _ d' P' hsame => ih (howned.of_forget hsame) (hrest hsame)

theorem copyPieces_keeps {pieces : List KeptPiece} (howned : d.Owned m)
    (hin : ∀ p ∈ pieces, d.Has p.shard p.device p.target) :
    KeepsFrom guarded d m P (copyPieces pieces) := by
  induction pieces generalizing d P with
  | nil => exact keepsFrom_self
  | cons p rest ih =>
    rw [copyPieces, ← bind_assoc]
    refine (KeepsFrom.noted ask_copy howned (hin p List.mem_cons_self) (fun _ hb => hb)
      fun _ _ h => h).bind fun _ d' P' hsame => ?_
    exact ih (howned.of_forget hsame) fun p' hp' =>
      (hin p' (List.mem_cons_of_mem _ hp')).of_forget hsame

section Launches

variable {session : Session} {kernels : List (Key × CompiledKernel)}
  {leaves : List (Terminal Descriptor)}

/-- A launch stores into the buffer of the shard. -/
theorem target_of_bindArguments {i : Nat} {device : DeviceId} {buffer : Option BufferId}
    {args : List Argument} (h : bindArguments d i leaves = .ok args)
    (hhas : d.Has i device buffer) : args[1]? = some (.buffer buffer) := by
  obtain ⟨s, hs, -, rfl⟩ := hhas
  obtain ⟨hi, hget⟩ := List.getElem?_eq_some_iff.mp hs
  have hd : d.shards = d.shards.take i ++ s :: d.shards.drop (i + 1) := by
    rw [← hget, List.getElem_cons_drop, List.take_append_drop]
  have hlength : (d.shards.take i).length = i := List.length_take_of_le (Nat.le_of_lt hi)
  have heq := bindArguments_eq hd rfl leaves
  rw [hlength, h] at heq
  cases hleaves : leaves.mapM (leafArgument i) with
  | error e =>
    rw [hleaves] at heq
    cases heq
  | ok rest =>
    rw [hleaves] at heq
    cases heq
    rfl

theorem launch_keeps {i : Nat} {s : Shard} (howned : d.Owned m) (hhas : d.Has i s.device s.buffer) :
    KeepsFrom guarded d m P (launch session kernels leaves i s) := by
  have hself : d.Moved m P d (m, P) := .refl m P d
  rw [launch]
  split
  · exact hself
  · simp only [KeepsFrom, Task.ensures_bind, Task.ensures_ofExcept, Task.ensures_get]
    refine ⟨fun threads _ => ⟨fun args hargs => ?_, fun _ _ => hself⟩, fun _ _ => hself⟩
    have htarget := target_of_bindArguments hargs hhas
    rw [← Task.ensures_bind]
    refine KeepsFrom.noted ask_launch howned hhas (fun b hb => ?_) fun _ _ h => h
    simpa using htarget.symm.trans hb

theorem launchFrom_keeps {index : Nat} {shards : List Shard} (howned : d.Owned m)
    (hin : ∀ k s, shards[k]? = some s → d.Has (index + k) s.device s.buffer) :
    KeepsFrom guarded d m P (launchFrom session kernels leaves index shards) := by
  induction shards generalizing d P index with
  | nil => exact keepsFrom_self
  | cons s rest ih =>
    have hrest : ∀ {d' : Descriptor}, d'.forget = d.forget → ∀ k s, rest[k]? = some s →
        d'.Has (index + 1 + k) s.device s.buffer := fun hsame k s hs => by
      rw [Nat.add_right_comm]
      exact (hin (k + 1) s hs).of_forget hsame
    rw [launchFrom]
    exact .ite (ih howned (hrest rfl)) <| (launch_keeps howned (hin 0 s rfl)).bind
      fun _ d' P' hsame => ih (howned.of_forget hsame) (hrest hsame)

theorem dispatch_keeps (session : Session) (kernels : List (Key × CompiledKernel))
    (f : Formula Descriptor) : Keeps guarded (dispatch session kernels f) :=
  .get_bind fun _ _ _ howned => launchFrom_keeps howned fun k s hs =>
    ⟨s, by rwa [Nat.zero_add], rfl, rfl⟩

end Launches

end Vector

end DistributedVector
