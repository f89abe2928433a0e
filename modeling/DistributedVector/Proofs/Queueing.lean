import DistributedVector.Proofs.Allocation
import DistributedVector.Proofs.Queues

/-!
# What queues promise

The contract of devices with queues. Of a queue only two things matter: commands leave it when their
device has carried out everything in front of them, and a new command comes last. A wait returns
when the command has left its queue, and a device that has been synchronized has nothing left.

With host arrays that are guarded, a program moreover has to leave those places of an array alone
that a pending command is about to store into, and reads of different devices go to different
places.

## Main definitions

* `Advances`, `Enqueued` — what may become of the pending commands
* `Call.Holds`, `Call.Fills` — the buffer that a command is about, and the places that it fills
* `Free`, `Quiet` — places that no pending command fills, and steps that leave no others to be
  filled
* `Call.Careful`, `queueing` — the contract

## Main results

* `World.meets` — the devices of every world keep the contract if arrays are not guarded
-/

namespace DistributedVector

/-- Devices have gone on: no command is new, and what stands behind a command that is still pending
is still pending, too. -/
structure Advances (P P' : List Pending) : Prop where
  mem : ∀ p ∈ P', p ∈ P
  order : ∀ p ∈ P', ∀ p' ∈ P, p'.device = p.device → p.event.number ≤ p'.event.number → p' ∈ P'

/-- A command has been enqueued, which is the last one, and devices have gone on. -/
structure Enqueued (p : Pending) (P P' : List Pending) : Prop where
  last : ∀ p' ∈ P, p'.event.number < p.event.number
  advances : Advances (P ++ [p]) P'

namespace Advances

variable {P P' P'' : List Pending}

theorem refl (P : List Pending) : Advances P P := ⟨fun _ hp => hp, fun _ _ _ hp' _ _ => hp'⟩

theorem trans (h : Advances P P') (h' : Advances P' P'') : Advances P P'' :=
  ⟨fun p hp => h.mem p (h'.mem p hp), fun p hp p' hp' hdevice hle =>
    h'.order p hp p' (h.order p (h'.mem p hp) p' hp' hdevice hle) hdevice hle⟩

/-- A device has taken the first command of its queue. -/
theorem eraseP (h : P.Pairwise (·.event.number < ·.event.number)) (d : DeviceId) :
    Advances P (P.eraseP (·.device = d)) := by
  refine ⟨fun p hp => List.mem_of_mem_eraseP hp, fun p hp p' hp' hdevice hle => ?_⟩
  by_cases hd : p'.device = d
  · rcases List.exists_or_eq_self_of_eraseP (fun p : Pending => decide (p.device = d)) P with
      heq | ⟨q, before, after, hbefore, hq, rfl, herase⟩
    · rwa [heq]
    · rw [herase] at hp ⊢
      -- what is left of this queue stands behind the command that has been taken
      have hp : p ∈ after := (List.mem_append.mp hp).resolve_left fun hmem =>
        hbefore p hmem (by simp [← hdevice, hd])
      rcases List.mem_append.mp hp' with hmem | hmem
      · exact absurd (by simp [hd]) (hbefore p' hmem)
      · refine List.mem_append_right _ ((List.mem_cons.mp hmem).resolve_left ?_)
        rintro rfl
        have := (List.pairwise_cons.mp (List.pairwise_append.mp h).2.1).1 p hp
        omega
  · exact (List.mem_eraseP_of_neg (by simp [hd])).mpr hp'

end Advances

section Calls

/-- A command stores into a buffer, or brings its elements to the host. -/
def Call.Holds (b : BufferId) : Call → Prop
  | .write _ b' _ _ _ | .read _ b' _ _ _ _ | .copy _ _ b' _ _ _ => b' = some b
  | .launch _ _ _ _ args => args[1]? = some (.buffer (some b))
  | _ => False

/-- A command stores into a place of a host array. -/
def Call.Fills (c : CellId) (i : Nat) : Call → Prop
  | .read _ _ _ count cell offset => cell = c ∧ offset ≤ i ∧ i < offset + count
  | _ => False

/-- A pending command is about to store into a place of a host array. -/
def Busy (P : List Pending) (c : CellId) (i : Nat) : Prop := ∃ p ∈ P, p.command.Fills c i

/-- Nothing is about to be stored into a range of a host array. -/
def Free (P : List Pending) (c : CellId) (start stop : Nat) : Prop :=
  ∀ i, start ≤ i → i < stop → ¬ Busy P c i

/-- Nothing is about to be stored into what a view shows. -/
def HostView.Free (P : List Pending) (view : HostView) : Prop :=
  DistributedVector.Free P view.cell view.offset (view.offset + view.size)

/-- No place of a host array is busy that has not been busy before. -/
def Quiet (P P' : List Pending) : Prop := ∀ c i, Busy P' c i → Busy P c i

/-- A call leaves alone what other devices are about to store into, and does not look at what is
about to change. -/
def Call.Careful (P : List Pending) : Call → Prop
  | .read d _ _ count cell offset => ∀ p ∈ P, p.device ≠ d →
    ∀ i, offset ≤ i → i < offset + count → ¬ p.command.Fills cell i
  | .hostContents cell offset count => Free P cell offset (offset + count)
  | _ => True

/-- What a call can make of the pending commands. -/
def Call.Queues : (c : Call) → List Pending → c.Reply → List Pending → Prop
  | .write d b offset shape data, P, .ok e, P' =>
    Enqueued ⟨d, e, .write d b offset shape data⟩ P P'
  | .read d b offset count cell cellOffset, P, .ok e, P' =>
    Enqueued ⟨d, e, .read d b offset count cell cellOffset⟩ P P'
  | .copy d source target count sourceOffset targetOffset, P, .ok e, P' =>
    Enqueued ⟨d, e, .copy d source target count sourceOffset targetOffset⟩ P P'
  | .launch d source grid workgroup args, P, .ok e, P' =>
    Enqueued ⟨d, e, .launch d source grid workgroup args⟩ P P'
  | .wait d e, P, r, P' => r = .ok () ∧ Advances P P' ∧ ∀ p ∈ P', p.device = d → p.event ≠ e
  | .synchronize d, P, .ok (), P' => Advances P P' ∧ ∀ p ∈ P', p.device ≠ d
  | _, P, _, P' => Advances P P'

/-- Nothing is about to be stored into an array that is made. -/
def Call.Makes : (c : Call) → List Pending → c.Reply → Prop
  | .hostArray .., P, c => ∀ i, ¬ Busy P c i
  | _, _, _ => True

end Calls

/-- The contract of devices with queues. -/
def queueing (guarded : Prop) : Contract (Allocated × List Pending) where
  allows c x := guarded → c.Careful x.2
  effect c x r x' := Allocated.Effect c x.1 r x'.1 ∧ c.Queues x.2 r x'.2 ∧ (guarded → c.Makes x.2 r)

/-- What the buffers of a memory have been allocated as. -/
def Memory.allocated (m : Memory) : Allocated := fun b =>
  (m.buffer b).map fun buf => ⟨buf.device, buf.data.size, buf.type, buf.access⟩

/-- What is known of devices from outside. -/
def Queues.view (q : Queues) : Allocated × List Pending := (q.memory.allocated, q.pending)

section Meets

variable {V : Type} {A : Arithmetic V} {q : Queues}

/-- Commands change contents only. -/
theorem Memory.allocated_perform (c : Call) (m : Memory) :
    (m.perform A c).allocated = m.allocated := by
  have hrevise : ∀ (b : Option BufferId) (f : Buffer → List Scalar),
      (∀ buf, (f buf).length = buf.data.size) → (m.revise b f).allocated = m.allocated := by
    intro b f hf
    funext id
    simp only [allocated, revise, Option.map_map]
    refine congrArg (Option.map · _) (funext fun buf => ?_)
    dsimp only [Function.comp]
    split
    · simp [hf]
    · rfl
  unfold perform
  split
  · exact hrevise _ _ fun buf => by simp
  · rfl
  · exact hrevise _ _ fun buf => by simp
  · exact hrevise _ _ fun buf => by simp
  · rfl

/-- A command that is not about a buffer leaves it alone. -/
theorem Memory.buffer_perform {c : Call} {b : BufferId} (h : ¬ c.Holds b) (m : Memory) :
    (m.perform A c).buffer b = m.buffer b := by
  have hrevise : ∀ (b' : Option BufferId) (f : Buffer → List Scalar), b' ≠ some b →
      (m.revise b' f).buffer b = m.buffer b := by
    intro b' f hne
    simp [revise, hne]
  unfold perform
  split
  · exact hrevise _ _ h
  · rfl
  · exact hrevise _ _ h
  · exact hrevise _ _ fun heq => h (by simp [Call.Holds, heq])
  · rfl

namespace Queues

theorem allocated_turn (q : Queues) (d : DeviceId) :
    (q.turn A d).memory.allocated = q.memory.allocated := by
  simp only [turn]
  cases q.pending.find? (·.device = d) with
  | none => rfl
  | some p => exact Memory.allocated_perform p.command q.memory

theorem allocated_advance (q : Queues) (ds : List DeviceId) :
    (q.advance A ds).memory.allocated = q.memory.allocated := by
  induction ds generalizing q with
  | nil => rfl
  | cons d rest ih => exact (ih (q.turn A d)).trans (q.allocated_turn d)

theorem advances_advance (q : Queues) (ds : List DeviceId) :
    Advances q.pending (q.advance A ds).pending := by
  induction ds generalizing q with
  | nil => exact .refl _
  | cons d rest ih => exact (Advances.eraseP q.ordered d).trans (ih (q.turn A d))

theorem allocated_newBuffer (q : Queues) (buf : Buffer) :
    (q.newBuffer buf).memory.allocated = Function.update q.memory.allocated q.issued
      (some ⟨buf.device, buf.data.size, buf.type, buf.access⟩) := by
  funext b
  by_cases hb : b = q.issued
  · subst hb
    simp [newBuffer, Memory.allocated, skip]
  · rw [Function.update_of_ne hb]
    simp [newBuffer, Memory.allocated, Memory.setBuffer_buffer_of_ne _ _ hb, skip]

end Queues

namespace World

variable (w : World V)

theorem accept_cases (q : Queues) (d : DeviceId) (kind : CommandKind) (c : Call) :
    (∃ e, w.accept q d kind c = (.error e, q.skip)) ∨
      w.accept q d kind c = (.ok ⟨kind, q.issued⟩, q.push d kind c) := by
  unfold accept
  split
  · exact .inl ⟨_, rfl⟩
  · exact .inr rfl

/-- Whatever is asked, devices allocate new buffers only. -/
theorem allocates (c : Call) (q : Queues) : Allocated.Effect c q.memory.allocated (w.handle c q).1
    (w.handle c q).2.memory.allocated := by
  simp only [handle, Queues.allocated_advance]
  cases c with
  | allocate d size type access =>
    simp only [answer]
    split
    · rfl
    · refine ⟨by simp [Memory.allocated, (q.unused q.issued (Nat.le_refl _)).1], ?_⟩
      rw [Queues.allocated_newBuffer, Array.size_replicate]
  | write | read | copy | launch =>
    simp only [answer]
    rcases accept_cases w q _ _ _ with ⟨e, h⟩ | h <;> rw [h] <;> rfl
  | build =>
    simp only [answer]
    split <;> rfl
  | wait => exact Queues.allocated_advance _ _
  | synchronize =>
    simp only [answer]
    split
    · rfl
    · exact Queues.allocated_advance _ _
  | _ => rfl

/-- Whatever is asked, the pending commands change as they may. -/
theorem queues (c : Call) (q : Queues) :
    c.Queues q.pending (w.handle c q).1 (w.handle c q).2.pending := by
  -- what devices do after the reply does not matter
  have hrest : ∀ q' : Queues, Advances q.pending q'.pending →
      Advances q.pending (q'.advance w.arithmetic (w.turns q.issued q'.pending)).pending :=
    fun q' h => h.trans (q'.advances_advance _)
  have hskip := hrest q.skip (.refl _)
  simp only [handle]
  cases c with
  | allocate d size type access =>
    simp only [answer]
    split
    · exact hskip
    · exact hrest (q.newBuffer _) (.refl _)
  | write | read | copy | launch =>
    simp only [answer]
    rcases accept_cases w q _ _ _ with ⟨e, h⟩ | h <;> rw [h]
    · exact hskip
    · exact ⟨q.bounded, (q.push _ _ _).advances_advance _⟩
  | build =>
    simp only [answer]
    split <;> exact hskip
  | wait d e =>
    refine ⟨rfl, hrest _ (q.advances_advance _), fun p hp hdevice => ?_⟩
    have hp := (Queues.advances_advance _ _).mem p hp
    exact Queues.notMem_finish (List.mem_filter.mpr ⟨hp, by simpa using hdevice⟩)
  | synchronize d =>
    simp only [answer]
    split
    · exact hskip
    · refine ⟨hrest _ (q.advances_advance _), fun p hp hdevice => ?_⟩
      have hp := (Queues.advances_advance _ _).mem p hp
      have hmem : p ∈ (q.drain w.arithmetic d).queue d :=
        List.mem_filter.mpr ⟨hp, by simpa using hdevice⟩
      rw [Queues.queue_drain] at hmem
      exact List.not_mem_nil hmem
  | hostArray => exact hrest (q.newCell _) (.refl _)
  | _ => exact hskip

/-- The devices of a world keep the contract. -/
theorem meets : w.handle.Meets Queues.view (queueing False) :=
  fun c q _ => ⟨w.allocates c q, w.queues c q, False.elim⟩

end World

end Meets

end DistributedVector
