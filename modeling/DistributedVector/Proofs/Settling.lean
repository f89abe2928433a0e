import DistributedVector.Proofs.Interleaving

/-!
# Queues that settle

Devices with queues, when all that is pending has been carried out, are as devices that carry out
each command as soon as it is enqueued. A call does the same to both, and so does a program, as long
as it keeps to the contract of devices that execute at once, and leaves alone what is about to be
stored into host arrays.

## Main definitions

* `Queues.settle` — the devices when all that is pending has been carried out
* `Call.device` — the device that a call is issued on

## Main results

* `World.handle_settle` — one call on devices with queues, and at once
* `World.effect_settled`, `World.prompt_meets` — devices that settle keep the contract of devices
  that execute at once
* `Program.run_settle` — a run on devices with queues, and at once
-/

namespace DistributedVector

/-- The device that a call is issued on. -/
def Call.device : Call → Option DeviceId
  | .allocate d .. | .write d .. | .read d .. | .copy d .. | .build d _ | .launch d .. | .wait d _
  | .synchronize d => some d
  | _ => none

theorem Call.Names.exists_device {c : Call} {b : BufferId} (h : c.Names b) :
    ∃ d, c.device = some d := by
  cases c with
  | write d | read d | copy d | launch d => exact ⟨d, rfl⟩
  | _ => exact h.elim

variable {V : Type} {A : Arithmetic V} {m m' : Memory} {c : Call} {q : Queues}
  {d : DeviceId}

theorem Memory.allocated_of_buffer {b : BufferId} {buf : Buffer} (h : m.buffer b = some buf) :
    ∃ o, m.allocated b = some o ∧ o.device = buf.device :=
  ⟨_, by rw [allocated, h, Option.map_some], rfl⟩

/-- Calls that may be made are about buffers of their device. -/
theorem Memory.Permits.on {suits : DeviceId → KernelSource → Int → Prop}
    (h : Memory.Permits suits c m) (hd : c.device = some d) : c.On d m := by
  have hspan : ∀ {b : Option BufferId} {offset : Int} {count : Nat} {id : BufferId} {buf : Buffer},
      m.Span d b offset count id buf → ∀ b', b = some b' → ∃ o, m.allocated b' = some o ∧
      o.device = d := by
    rintro b offset count id buf hspan b' rfl
    obtain ⟨o, ho, hdevice⟩ := allocated_of_buffer hspan.present
    exact ⟨o, Option.some_inj.mp hspan.named ▸ ho, hdevice.trans hspan.owned⟩
  cases c with
  | write =>
    cases hd
    obtain ⟨-, id, buf, hwhere⟩ := h
    exact ⟨hspan hwhere, fun _ => False.elim⟩
  | read =>
    cases hd
    obtain ⟨⟨id, buf, hwhere⟩, a, hcell, -⟩ := h
    refine ⟨hspan hwhere, ?_⟩
    rintro k rfl
    simp [hcell]
  | copy =>
    cases hd
    obtain ⟨id, buf, id', buf', hsource, htarget, -⟩ := h
    exact ⟨fun b hb => hb.elim (hspan hsource b) (hspan htarget b), fun _ => False.elim⟩
  | launch =>
    cases hd
    obtain ⟨-, target, buf, rest, rfl, hrun⟩ := h
    refine ⟨fun b hb => ?_, fun _ => False.elim⟩
    -- the arguments are the number of elements, the result and then the parameters
    rcases List.mem_cons.mp hb with hb | hb
    · cases hb
    rcases List.mem_cons.mp hb with hb | hb
    · cases hb
      obtain ⟨o, ho, hdevice⟩ := allocated_of_buffer hrun.present
      exact ⟨o, ho, hdevice.trans hrun.owned⟩
    · obtain ⟨i, hi⟩ := List.getElem?_of_mem hb
      obtain ⟨p, -, -, id, buf', hid, hbuf, hdevice, -⟩ :=
        getElem?_of_forall₂ hrun.arguments.flip hi
      cases hid
      obtain ⟨o, ho, hdevice'⟩ := allocated_of_buffer hbuf
      exact ⟨o, ho, hdevice'.trans hdevice⟩
  | _ => exact ⟨fun _ => False.elim, fun _ => False.elim⟩

namespace Memory

/-- Replacing the elements of a buffer is storing into it. -/
theorem stored_revise {α : Type} {target : Option BufferId} {f : Buffer → List Scalar}
    {intended : Buffer → List Scalar → Prop} (hlength : ∀ buf, (f buf).length = buf.data.size)
    (hintended : ∀ id buf, target = some id → m.buffer id = some buf → intended buf (f buf))
    (r : Except DeviceFault α) : m.Stored target r intended (m.revise target f) := by
  rintro id buf rfl hbuf
  refine ⟨(f buf).toArray, by simp [hlength], ?_, fun _ _ => hintended id buf rfl hbuf⟩
  refine Memory.ext (funext fun id' => ?_) rfl
  simp only [revise, setBuffer, Option.some_inj]
  split
  next heq =>
    subst heq
    simp [hbuf]
  next hne => simp [Ne.symm hne]

/-- A command that fails stores nothing. -/
theorem stored_self {α : Type} {target : Option BufferId} {intended : Buffer → List Scalar → Prop}
    (e : DeviceFault) : m.Stored target (.error e : Except DeviceFault α) intended m :=
  fun _ buf _ hbuf => ⟨buf.data, rfl, (m.setBuffer_self hbuf).symm, fun _ h => by cases h⟩

theorem fill_of_present {k : CellId} {a : Array Scalar} (h : m.cell k = some a) (offset : Nat)
    (values : List Scalar) :
    m.fill k offset values = m.setCell k (overlay offset values a.toList).toArray := by
  refine Memory.ext rfl (funext fun k' => ?_)
  simp only [fill, setCell]
  split
  next heq =>
    subst heq
    simp [h]
  · simp

theorem part_of_present {id : BufferId} {buf : Buffer} (h : m.buffer id = some buf) (offset : Int)
    (count : Nat) : m.part (some id) offset count =
    (buf.data.toList.drop offset.toNat).take count := by
  simp [part, h]

/-- What a kernel computes. -/
theorem computes_computed (m : Memory) (source : KernelSource) (type : ElementType) (n : Nat)
    (args : List Argument) : m.Computes A source type n args (m.computed A source type n args) :=
  ⟨by simp [computed], fun i hi values hvalues => by simp [computed, hi, hvalues]⟩

end Memory

namespace Queues

theorem allocated_settled (q : Queues) : (q.settled A).allocated = q.memory.allocated :=
  Memory.carry_frame (fun p _ m => Memory.allocated_perform p.command m) _

theorem size_cell_settled (q : Queues) (k : CellId) :
    ((q.settled A).cell k).map (·.size) = (q.memory.cell k).map (·.size) :=
  Memory.carry_frame (f := fun m => (m.cell k).map (·.size))
    (fun p _ m => Memory.size_cell_perform p.command m k) _

theorem settled_extends (q : Queues) : (q.settled A).Extends q.memory :=
  .of_eq q.allocated_settled.symm fun k => (q.size_cell_settled k).symm

/-- A buffer that nothing is pending on is what it is going to be. -/
theorem buffer_settled {b : BufferId} (h : ∀ p ∈ q.pending, ¬ p.command.Holds b) :
    (q.settled A).buffer b = q.memory.buffer b :=
  Memory.carry_frame (f := fun m => m.buffer b)
    (fun p hp m => Memory.buffer_perform (h p hp) m) _

/-- So is a range of a host array that nothing is about to be stored into. -/
theorem extract_settled {k : CellId} {start stop : Nat} (h : Free q.pending k start stop) :
    (((q.settled A).cell k).getD #[]).extract start stop =
      ((q.memory.cell k).getD #[]).extract start stop := by
  have hplace : ∀ i, start ≤ i → i < stop →
      (((q.settled A).cell k).getD #[])[i]? = ((q.memory.cell k).getD #[])[i]? := by
    intro i hlower hupper
    exact Memory.carry_frame (f := fun m => ((m.cell k).getD #[])[i]?) (fun p hp m =>
      Memory.place_perform (fun hfills => h i hlower hupper ⟨p, hp, hfills⟩) m) _
  apply Array.toList_inj.mp
  apply List.ext_getElem?
  intro i
  simp only [Array.toList_extract, List.extract_eq_take_drop, List.getElem?_take,
    List.getElem?_drop, Array.getElem?_toList]
  split
  · exact hplace _ (by omega) (by omega)
  · rfl

theorem unused_settled (q : Queues) (n : Nat) (hn : q.issued ≤ n) :
    (q.settled A).buffer n = none ∧ (q.settled A).cell n = none := by
  obtain ⟨hbuffer, hcell⟩ := q.unused n hn
  constructor
  · have heq := congrFun (q.allocated_settled (A := A)) n
    simpa [Memory.allocated, hbuffer] using heq
  · simpa [hcell] using q.size_cell_settled (A := A) n

/-- The devices when all that is pending has been carried out. -/
def settle (A : Arithmetic V) (q : Queues) : Queues where
  memory := q.settled A
  pending := []
  issued := q.issued
  ordered := start.ordered
  bounded _ hp := absurd hp List.not_mem_nil
  unused := q.unused_settled

/-- What is pending does not name what is new. -/
theorem Separate.new (h : q.Separate) {p : Pending} (hp : p ∈ q.pending) :
    ¬ p.command.Names q.issued ∧ ¬ p.command.Into q.issued := by
  obtain ⟨hbuffer, hcell⟩ := q.unused q.issued (Nat.le_refl _)
  refine ⟨fun hnames => ?_, fun hinto => (h.each p hp).there _ hinto hcell⟩
  obtain ⟨o, ho, -⟩ := (h.each p hp).own _ hnames
  simp [Memory.allocated, hbuffer] at ho

theorem settle_advance (h : q.Separate) (ds : List DeviceId) :
    (q.advance A ds).settle A = q.settle A :=
  Queues.ext (settled_advance h ds).1 rfl (q.issued_advance ds)

theorem settle_newBuffer (h : q.Separate) (buf : Buffer) :
    (q.newBuffer buf).settle A = (q.settle A).newBuffer buf :=
  Queues.ext (Memory.carry_comm (fun _ hp => Memory.perform_setBuffer (h.new hp).1 buf) _) rfl rfl

theorem settle_newCell (h : q.Separate) (a : Array Scalar) :
    (q.newCell a).settle A = (q.settle A).newCell a :=
  Queues.ext (Memory.carry_comm (fun _ hp => Memory.perform_setCell (h.new hp).2 a) _) rfl rfl

theorem settle_change {k : CellId} {offset : Nat} {values : List Scalar}
    (h : Free q.pending k offset (offset + values.length)) :
    (q.change k offset values).settle A = (q.settle A).change k offset values :=
  Queues.ext (Memory.carry_comm (f := fun m => m.fill k offset values) (fun p hp =>
    Memory.perform_fill fun i hlower hupper hfills => h i hlower hupper ⟨p, hp, hfills⟩) _) rfl rfl

theorem extends_newBuffer (q : Queues) (buf : Buffer) :
    q.memory.Extends (q.newBuffer buf).memory := by
  refine ⟨?_, fun _ hk => hk⟩
  rw [allocated_newBuffer]
  exact .update (by simp [Memory.allocated, (q.unused q.issued (Nat.le_refl _)).1]) _

theorem extends_newCell (q : Queues) (a : Array Scalar) :
    q.memory.Extends (q.newCell a).memory := by
  refine ⟨.refl _, fun k hk => ?_⟩
  by_cases heq : k = q.issued
  · simp [newCell, heq]
  · simpa [newCell, Memory.setCell_cell_of_ne _ _ heq] using hk

theorem extends_change (q : Queues) (k : CellId) (offset : Nat) (values : List Scalar) :
    q.memory.Extends (q.change k offset values).memory :=
  ⟨.refl _, fun k' hk => by simpa [change, Memory.fill] using hk⟩

/-- A command is carried out at once if its device does not wait with it. -/
theorem advance_push (q : Queues) (d : DeviceId) (kind : CommandKind) (c : Call) :
    ((q.settle A).push d kind c).advance A [d] = (q.push d kind c).settle A := by
  refine Queues.ext ?_ ?_ rfl
  · simp [advance, turn, settle, push, settled]
  · simp [advance, turn, settle, push]

theorem separate_push (h : q.Separate) (hc : c.On d q.memory)
    (hplaces : ∀ p ∈ q.pending, p.device ≠ d →
    ∀ k i, c.Fills k i → ¬ p.command.Fills k i) (kind : CommandKind) :
    (q.push d kind c).Separate := by
  constructor
  · intro p hp
    rcases List.mem_append.mp hp with hp | hp
    · exact h.each p hp
    · obtain rfl := List.mem_singleton.mp hp
      exact hc
  · intro p hp p' hp' hne k i hfills hfills'
    rcases List.mem_append.mp hp with hp | hp <;> rcases List.mem_append.mp hp' with hp' | hp'
    · exact h.places p hp p' hp' hne k i hfills hfills'
    · obtain rfl := List.mem_singleton.mp hp'
      exact hplaces p hp hne k i hfills' hfills
    · obtain rfl := List.mem_singleton.mp hp
      exact hplaces p' hp' hne.symm k i hfills hfills'
    · obtain rfl := List.mem_singleton.mp hp
      obtain rfl := List.mem_singleton.mp hp'
      exact hne rfl

end Queues

namespace World

variable (w : World V)

/-- Devices that carry out commands at once have nothing to do where nothing is pending. -/
theorem handle_atOnce (h : (w.answer c q).2.pending = []) : w.atOnce.handle c q = w.answer c q := by
  have heq : w.atOnce.answer c q = w.answer c q := by cases c <;> rfl
  simp only [handle, heq]
  simp [atOnce, h, Queues.advance]

/-- A command is enqueued, and carried out at once; or it fails on both. -/
theorem accept_settle (hq : q.Separate) (kind : CommandKind) (hc : c.On d q.memory)
    (hplaces : ∀ p ∈ q.pending, p.device ≠ d → ∀ k i, c.Fills k i → ¬ p.command.Fills k i) :
    ((w.accept (q.settle w.arithmetic) d kind c).1,
        (w.accept (q.settle w.arithmetic) d kind c).2.advance w.arithmetic
          ((w.accept (q.settle w.arithmetic) d kind c).2.pending.map (·.device))) =
      ((w.accept q d kind c).1, (w.accept q d kind c).2.settle w.arithmetic) ∧
    (w.accept q d kind c).2.Separate := by
  have hissued : (q.settle w.arithmetic).issued = q.issued := rfl
  unfold accept
  rw [hissued]
  cases w.fault q.issued c with
  | some e => exact ⟨rfl, hq.mono (fun _ hp => hp) (.refl _)⟩
  | none => exact ⟨Prod.ext rfl (q.advance_push d kind c), Queues.separate_push hq hc hplaces kind⟩

/-- The answer of devices with queues is that of devices that carry out each command at once. -/
theorem answer_settle (hq : q.Separate) (hc : ∀ d, c.device = some d → c.On d q.memory)
    (hcareful : c.Careful q.pending) :
    w.atOnce.handle c (q.settle w.arithmetic) =
      ((w.answer c q).1, (w.answer c q).2.settle w.arithmetic) ∧ (w.answer c q).2.Separate := by
  have hissued : (q.settle w.arithmetic).issued = q.issued := rfl
  have hskip : q.skip.Separate := hq.mono (fun _ hp => hp) (.refl _)
  have hadvance : ∀ ds, (q.advance w.arithmetic ds).skip.settle w.arithmetic =
      (q.settle w.arithmetic).skip ∧ (q.advance w.arithmetic ds).skip.Separate := fun ds =>
    ⟨congrArg Queues.skip (Queues.settle_advance hq ds),
      (Queues.settled_advance hq ds).2.mono (fun _ hp => hp) (.refl _)⟩
  -- what stores into no array of the host is in nobody's way
  have hapart : (∀ k i, ¬ c.Fills k i) → ∀ d, ∀ p ∈ q.pending, p.device ≠ d →
      ∀ k i, c.Fills k i → ¬ p.command.Fills k i := fun h _ _ _ _ k i hfills => (h k i hfills).elim
  cases c with
  | allocate d size type access =>
    rw [handle_atOnce w (by simp only [answer]; split <;> rfl)]
    simp only [answer, hissued]
    split
    · exact ⟨rfl, hskip⟩
    · exact ⟨Prod.ext rfl (Queues.settle_newBuffer hq _).symm,
        hq.mono (fun _ hp => hp) (q.extends_newBuffer _)⟩
  | write d => exact w.accept_settle hq _ (hc d rfl) (hapart (fun _ _ => id) d)
  | read d b offset count cell cellOffset =>
    refine w.accept_settle hq _ (hc d rfl) fun p hp hne k i hfills => ?_
    obtain ⟨rfl, hlower, hupper⟩ := hfills
    exact hcareful p hp hne i hlower hupper
  | copy d => exact w.accept_settle hq _ (hc d rfl) (hapart (fun _ _ => id) d)
  | launch d => exact w.accept_settle hq _ (hc d rfl) (hapart (fun _ _ => id) d)
  | build d source =>
    rw [handle_atOnce w (by simp only [answer]; split <;> rfl)]
    simp only [answer, hissued]
    split <;> exact ⟨rfl, hskip⟩
  | wait d e => exact ⟨Prod.ext rfl (hadvance _).1.symm, (hadvance _).2⟩
  | synchronize d =>
    rw [handle_atOnce w (by simp only [answer]; split <;> rfl)]
    simp only [answer, hissued]
    split
    · exact ⟨rfl, hskip⟩
    · exact ⟨Prod.ext rfl (hadvance _).1.symm, (hadvance _).2⟩
  | hostArray count type =>
    exact ⟨Prod.ext rfl (Queues.settle_newCell hq _).symm,
      hq.mono (fun _ hp => hp) (q.extends_newCell _)⟩
  | hostContents cell offset count => exact ⟨Prod.ext (Queues.extract_settled hcareful) rfl, hskip⟩
  | clock | report | multiply => exact ⟨rfl, hskip⟩

/-- A call does to devices with queues, when they will have settled, what it does to devices that
carry out each command at once. -/
theorem handle_settle (hq : q.Separate) (hc : ∀ d, c.device = some d → c.On d q.memory)
    (hcareful : c.Careful q.pending) :
    w.atOnce.handle c (q.settle w.arithmetic) =
      ((w.handle c q).1, (w.handle c q).2.settle w.arithmetic) ∧ (w.handle c q).2.Separate := by
  obtain ⟨heq, hseparate⟩ := w.answer_settle hq hc hcareful
  exact ⟨heq.trans (Prod.ext rfl (Queues.settle_advance hseparate _).symm),
    (Queues.settled_advance hseparate _).2⟩

/-- When devices will have settled, a call has done what devices promise. -/
theorem effect_settled {suits : DeviceId → KernelSource → Int → Prop} (hq : q.Separate)
    (hc : Memory.Permits suits c (q.settled w.arithmetic)) (hcareful : c.Careful q.pending) :
    Memory.Effect w.arithmetic c (q.settled w.arithmetic) (w.handle c q).1
      ((w.handle c q).2.settled w.arithmetic) := by
  have hon : ∀ d, c.device = some d → c.On d q.memory :=
    fun d hd => (hc.on hd).mono q.settled_extends
  have hseparate := (w.answer_settle hq hon hcareful).2
  have hsettled : (w.handle c q).2.settled w.arithmetic = (w.answer c q).2.settled w.arithmetic :=
    (Queues.settled_advance hseparate _).1
  rw [hsettled]
  -- a command has been carried out, or has failed
  have hpush : ∀ (d : DeviceId) (kind : CommandKind) (c : Call),
      (q.push d kind c).settled w.arithmetic = (q.settled w.arithmetic).perform w.arithmetic c := by
    intro d kind c
    simp [Queues.settled, Queues.push]
  have hadvance : ∀ ds, (q.advance w.arithmetic ds).skip.settled w.arithmetic =
      q.settled w.arithmetic := fun ds => (Queues.settled_advance hq ds).1
  have hnew := (q.settle w.arithmetic).unused q.issued (Nat.le_refl _)
  simp only [handle]
  cases c with
  | allocate d size type access =>
    simp only [answer]
    split
    · exact rfl
    · exact ⟨hnew.1, congrArg Queues.memory (Queues.settle_newBuffer hq _)⟩
  | write d b offset shape data =>
    simp only [answer]
    rcases w.accept_cases q d .write (.write d b offset shape data) with ⟨e, h⟩ | h <;> rw [h] <;>
      dsimp only [Memory.Effect]
    · exact Memory.stored_self e
    · rw [hpush]
      refine Memory.stored_revise (fun buf => ?_) (fun _ _ _ _ => ?_) _
      · exact length_overlay
      · exact rfl
  | read d b offset count cell cellOffset =>
    simp only [answer]
    rcases w.accept_cases q d .read (.read d b offset count cell cellOffset) with ⟨e, h⟩ | h <;>
      rw [h] <;> rintro id buf a rfl hbuf ha
    · exact ⟨a, rfl, (Memory.setCell_self _ ha).symm, fun _ h => by cases h⟩
    · rw [hpush]
      refine ⟨_, ?_, Memory.fill_of_present ha _ _, fun _ _ => ?_⟩
      · simp
      · simp [Memory.part_of_present hbuf]
  | copy d source target count sourceOffset targetOffset =>
    simp only [answer]
    rcases w.accept_cases q d .copy (.copy d source target count sourceOffset targetOffset) with
      ⟨e, h⟩ | h <;> rw [h] <;> rintro id buf rfl hbuf
    · exact Memory.stored_self e
    · rw [hpush]
      refine Memory.stored_revise (fun buf => ?_) (fun _ _ _ _ => ?_) _
      · exact length_overlay
      · rw [Memory.part_of_present hbuf]
  | launch d source grid workgroup args =>
    obtain ⟨-, target, buf, rest, rfl, hrun⟩ := hc
    simp only [answer]
    rcases w.accept_cases q d .launch (.launch d source grid workgroup (.scalar (.element .uint64)
      (.int buf.data.size) :: .buffer (some target) :: rest)) with ⟨e, h⟩ | h <;> rw [h] <;>
      dsimp only [Memory.Effect]
    · exact Memory.stored_self e
    · rw [hpush]
      refine Memory.stored_revise (fun buf => ?_) (fun id buf' hid hbuf => ?_) _
      · exact length_overlay
      cases hid
      obtain rfl := Option.some_inj.mp (hrun.present.symm.trans hbuf)
      rw [Int.toNat_natCast, overlay_zero_of_length (by simp [Memory.computed])]
      exact Memory.computes_computed ..
  | build d source =>
    simp only [answer]
    split <;> exact rfl
  | wait d e => exact hadvance _
  | synchronize d =>
    simp only [answer]
    split
    · exact rfl
    · exact hadvance _
  | hostArray count type =>
    exact ⟨hnew.2, _, Array.size_replicate, congrArg Queues.memory (Queues.settle_newCell hq _)⟩
  | hostContents cell offset count =>
    refine ⟨rfl, fun a ha => ?_⟩
    have heq := Queues.extract_settled (A := w.arithmetic) hcareful
    rw [ha] at heq
    exact heq.symm
  | clock | report | multiply => exact rfl

/-- Devices that carry out what is pending before they answer. -/
def prompt : Handler Queues := fun c q => w.handle c (q.settle w.arithmetic)

/-- Devices that leave nothing pending keep the contract of devices that execute at once. -/
theorem prompt_meets (suits : DeviceId → KernelSource → Int → Prop) :
    w.prompt.Meets (·.settled w.arithmetic) (deviceContract w.arithmetic suits) := by
  intro c q hc
  have hnone : ∀ p, p ∉ (q.settle w.arithmetic).pending := fun _ => List.not_mem_nil
  refine w.effect_settled (q := q.settle w.arithmetic) ⟨fun p hp => absurd hp (hnone p),
    fun p hp => absurd hp (hnone p)⟩ hc ?_
  cases c with
  | read => exact fun p hp => absurd hp (hnone p)
  | hostContents => exact fun i _ _ ⟨p, hp, _⟩ => hnone p hp
  | _ => trivial

/-- Whatever is asked, buffers and host arrays stay what they are. -/
theorem extends_handle (c : Call) (q : Queues) : q.memory.Extends (w.handle c q).2.memory := by
  refine .trans ?_ (Queues.extends_advance _ _)
  cases c with
  | allocate =>
    simp only [answer]
    split
    · exact .refl _
    · exact q.extends_newBuffer _
  | write | read | copy | launch =>
    simp only [answer]
    rcases accept_cases w q _ _ _ with ⟨e, h⟩ | h <;> rw [h] <;> exact .refl _
  | build =>
    simp only [answer]
    split <;> exact .refl _
  | wait => exact q.extends_advance _
  | synchronize =>
    simp only [answer]
    split
    · exact .refl _
    · exact q.extends_advance _
  | hostArray => exact q.extends_newCell _
  | _ => exact .refl _

/-- The devices keep the contract of devices with queues, also where host arrays are guarded. -/
theorem effect_queueing (hq : q.Separate) : (queueing True).effect c q.view (w.handle c q).1
    (w.handle c q).2.view := by
  refine ⟨w.allocates c q, w.queues c q, fun _ => ?_⟩
  cases c with
  | hostArray count type =>
    rintro i ⟨p, hp, hfills⟩
    exact (hq.new hp).2 hfills.into
  | _ => exact trivial

end World

/-- A program that keeps to what devices with queues and devices that execute at once allow answers
on both the same, and leaves the same when the devices will have settled. All its calls are about
buffers of the devices that they are issued on. -/
theorem Program.run_settle {α : Type} {suits : DeviceId → KernelSource → Int → Prop}
    {good : α → Memory → Prop} {good' : α → Allocated × List Pending → Prop} (w : World V)
    {p : Program α} (hq : q.Separate)
    (h : p.Ensures (deviceContract w.arithmetic suits) good (q.settled w.arithmetic))
    (h' : p.Ensures (queueing True) good' q.view) :
    p.run w.atOnce.handle (q.settle w.arithmetic) =
        ((p.run w.handle q).1, (p.run w.handle q).2.settle w.arithmetic) ∧
      (p.run w.handle q).2.Separate ∧ q.memory.Extends (p.run w.handle q).2.memory ∧
      good (p.run w.handle q).1 ((p.run w.handle q).2.settled w.arithmetic) ∧
      good' (p.run w.handle q).1 (p.run w.handle q).2.view ∧
      ∀ c ∈ p.calls w.handle q, ∀ d, c.device = some d → c.On d (p.run w.handle q).2.memory := by
  induction p generalizing q with
  | pure a => exact ⟨rfl, hq, .refl _, h, h', fun _ hc => absurd hc List.not_mem_nil⟩
  | call c next ih =>
    -- one call on both sides, which leaves devices from which the rest runs
    have hcareful : c.Careful q.pending := h'.1 trivial
    have hon : ∀ d, c.device = some d → c.On d q.memory := fun d hd =>
      (Memory.Permits.on h.1 hd).mono q.settled_extends
    obtain ⟨heq, hseparate⟩ := w.handle_settle hq hon hcareful
    obtain ⟨hrun, hrest⟩ :=
      ih (w.handle c q).1 hseparate (h.2 _ _ (w.effect_settled hq h.1 hcareful))
      (h'.2 _ _ (w.effect_queueing hq))
    obtain ⟨hseparate', hextends, hgood, hgood', hcalls⟩ := hrest
    refine ⟨?_, hseparate', (w.extends_handle c q).trans hextends, hgood, hgood',
      fun c' hc' d hd => ?_⟩
    · simp only [run, heq]
      exact hrun
    · rcases List.mem_cons.mp hc' with rfl | hc'
      · exact (hon d hd).mono ((w.extends_handle c' q).trans hextends)
      · exact hcalls c' hc' d hd

end DistributedVector
