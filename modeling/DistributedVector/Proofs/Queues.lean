import DistributedVector.Proofs.Devices

/-!
# Devices with queues

Devices that accept commands and carry them out later. Each device has a queue of its own and takes
its commands first in, first out; there are no barriers between queues, so that the queues of
different devices advance in any interleaving. A schedule decides, after each call, which devices go
on and in which order. To wait for a command is to let its device go on until the command has been
carried out, and to synchronize a device is to let it go on until its queue is empty.

Transfers, copies and launches are enqueued; buffers and host arrays are made at once. A write takes
its data along when it is enqueued, which comes to the same thing as looking at the host array later
if the array is left alone in between. Whether a call fails is up to the world, waiting apart: it
always succeeds.

## Main definitions

* `Memory.perform` — what a command does when it is carried out
* `Pending`, `Queues` — commands that have not been carried out yet, and the state of all devices
* `Queues.turn`, `Queues.advance` — devices go on
* `World`, `World.handle` — faults, time and schedule, and the devices as a handler of calls
* `World.atOnce` — the same world, where each command is carried out as soon as it is enqueued

## Main results

* `Queues.queue_advance_replicate` — a device takes its commands in order
-/

namespace DistributedVector

variable {V : Type} {A : Arithmetic V}

namespace Memory

/-- The elements in a range of a buffer. -/
def part (m : Memory) (b : Option BufferId) (offset : Int) (count : Nat) : List Scalar :=
  (((b.bind m.buffer).elim [] (·.data.toList)).drop offset.toNat).take count

/-- Replaces the elements of a buffer that is there. -/
def revise (m : Memory) (b : Option BufferId) (f : Buffer → List Scalar) : Memory :=
  { m with
    buffer := fun id => (m.buffer id).map fun buf =>
      if b = some id then { buf with data := (f buf).toArray } else buf }

/-- Writes over the elements of a host array that is there. -/
def fill (m : Memory) (c : CellId) (offset : Nat) (values : List Scalar) : Memory :=
  { m with
    cell := fun c' => (m.cell c').map fun a =>
      if c' = c then (overlay offset values a.toList).toArray else a }

/-- What the text of a kernel computes for the first `n` indices. -/
def computed (A : Arithmetic V) (m : Memory) (source : KernelSource) (type : ElementType) (n : Nat)
    (args : List Argument) : List Scalar :=
  (List.range n).map fun i => A.store type <|
    A.compute source.text ((args.mapM (Argument.valueAt A m i)).getD [])

/-- Carries out a command; other calls leave the memory as it is. -/
def perform (A : Arithmetic V) : Call → Memory → Memory
  | .write _ b offset _ data, m =>
    m.revise b fun buf => overlay offset.toNat data.toList buf.data.toList
  | .read _ b offset count cell cellOffset, m => m.fill cell cellOffset (m.part b offset count)
  | .copy _ source target count sourceOffset targetOffset, m =>
    m.revise target fun buf =>
      overlay targetOffset.toNat (m.part source sourceOffset count) buf.data.toList
  | .launch _ source _ _ (.scalar _ (.int n) :: .buffer target :: rest), m =>
    m.revise target fun buf =>
      overlay 0 (m.computed A source buf.type n.toNat rest) buf.data.toList
  | _, m => m

/-- Nothing comes into being by carrying out commands. -/
theorem perform_eq_none {m : Memory} (c : Call) {n : Nat}
    (h : m.buffer n = none ∧ m.cell n = none) :
    (m.perform A c).buffer n = none ∧ (m.perform A c).cell n = none := by
  unfold perform
  split <;> simp [revise, fill, h]

end Memory

/-- A command that has been enqueued and not been carried out. -/
structure Pending where
  device : DeviceId
  event : Event
  command : Call

/-- The state of all devices: the memory, the commands that have not been carried out, in the order
in which they have been enqueued, and how many calls there have been. Calls number their events,
buffers and arrays. -/
@[ext] structure Queues where
  memory : Memory
  pending : List Pending
  issued : Nat
  ordered : pending.Pairwise (·.event.number < ·.event.number)
  bounded : ∀ p ∈ pending, p.event.number < issued
  unused : ∀ n, issued ≤ n → memory.buffer n = none ∧ memory.cell n = none

namespace Queues

/-- Devices of which nothing has been asked yet. -/
def start : Queues where
  memory := ⟨fun _ => none, fun _ => none⟩
  pending := []
  issued := 0
  ordered := .nil
  bounded _ hp := absurd hp List.not_mem_nil
  unused _ _ := ⟨rfl, rfl⟩

/-- The queue of a device. -/
def queue (q : Queues) (d : DeviceId) : List Pending := q.pending.filter (·.device = d)

/-- A device goes on: it carries out the first command in its queue, if there is one. -/
def turn (A : Arithmetic V) (q : Queues) (d : DeviceId) : Queues where
  memory := (q.pending.find? (·.device = d)).elim q.memory (q.memory.perform A ·.command)
  pending := q.pending.eraseP (·.device = d)
  issued := q.issued
  ordered := q.ordered.sublist List.eraseP_sublist
  bounded p hp := q.bounded p (List.mem_of_mem_eraseP hp)
  unused n hn := by
    cases q.pending.find? (·.device = d) with
    | none => exact q.unused n hn
    | some p => exact Memory.perform_eq_none p.command (q.unused n hn)

/-- Devices go on one after the other. -/
def advance (A : Arithmetic V) (q : Queues) (ds : List DeviceId) : Queues := ds.foldl (turn A) q

/-- How many commands a device has to carry out until one of them has been. -/
def ahead (q : Queues) (d : DeviceId) (e : Event) : Nat :=
  ((q.queue d).findIdx? (·.event = e)).elim 0 (· + 1)

/-- A device goes on until a command has been carried out. -/
def finish (A : Arithmetic V) (q : Queues) (d : DeviceId) (e : Event) : Queues :=
  q.advance A (List.replicate (q.ahead d e) d)

/-- A device goes on until its queue is empty. -/
def drain (A : Arithmetic V) (q : Queues) (d : DeviceId) : Queues :=
  q.advance A (List.replicate (q.queue d).length d)

/-- A call that leaves the devices alone is counted. -/
def skip (q : Queues) : Queues where
  memory := q.memory
  pending := q.pending
  issued := q.issued + 1
  ordered := q.ordered
  bounded p hp := Nat.lt_succ_of_lt (q.bounded p hp)
  unused n hn := q.unused n (Nat.le_of_succ_le hn)

/-- A command is enqueued. -/
def push (q : Queues) (d : DeviceId) (kind : CommandKind) (c : Call) : Queues where
  memory := q.memory
  pending := q.pending ++ [⟨d, ⟨kind, q.issued⟩, c⟩]
  issued := q.issued + 1
  ordered := List.pairwise_append.mpr ⟨q.ordered, List.pairwise_singleton _ _, fun p hp p' hp' => by
    obtain rfl := List.mem_singleton.mp hp'
    exact q.bounded p hp⟩
  bounded p hp := by
    rcases List.mem_append.mp hp with hp | hp
    · exact Nat.lt_succ_of_lt (q.bounded p hp)
    · obtain rfl := List.mem_singleton.mp hp
      exact Nat.lt_succ_self _
  unused n hn := q.unused n (Nat.le_of_succ_le hn)

/-- A buffer is made. -/
def newBuffer (q : Queues) (buf : Buffer) : Queues :=
  { q.skip with
    memory := q.memory.setBuffer q.issued buf
    unused := fun n hn => by
      have hne : n ≠ q.issued := Nat.ne_of_gt hn
      rw [Memory.setBuffer_buffer_of_ne _ _ hne]
      exact q.unused n (Nat.le_of_succ_le hn) }

/-- A host array is made. -/
def newCell (q : Queues) (a : Array Scalar) : Queues :=
  { q.skip with
    memory := q.memory.setCell q.issued a
    unused := fun n hn => by
      have hne : n ≠ q.issued := Nat.ne_of_gt hn
      rw [Memory.setCell_cell_of_ne _ _ hne]
      exact q.unused n (Nat.le_of_succ_le hn) }

/-- The host writes over the elements of an array. -/
def change (q : Queues) (c : CellId) (offset : Nat) (values : List Scalar) : Queues :=
  { q with
    memory := q.memory.fill c offset values
    unused := fun n hn => ⟨(q.unused n hn).1, by simp [Memory.fill, (q.unused n hn).2]⟩ }

section Order

variable {q : Queues} {d d' : DeviceId} {e : Event}

/-- The first entry that is found in a list is the first one of those that are looked for. -/
theorem filter_eraseP {α : Type} (p : α → Bool) (xs : List α) :
    (xs.eraseP p).filter p = (xs.filter p).tail := by
  induction xs with
  | nil => rfl
  | cons x xs ih =>
    cases hx : p x with
    | true => simp [hx]
    | false => simp [hx, ih]

/-- A device takes the first command of its queue. -/
theorem queue_turn (q : Queues) (d : DeviceId) : (q.turn A d).queue d = (q.queue d).tail :=
  filter_eraseP _ _

/-- A device takes its commands in order. -/
theorem queue_advance_replicate (q : Queues) (d : DeviceId) (n : Nat) :
    (q.advance A (List.replicate n d)).queue d = (q.queue d).drop n := by
  induction n generalizing q with
  | zero => rfl
  | succ n ih =>
    have hstep : q.advance A (List.replicate (n + 1) d) =
        (q.turn A d).advance A (List.replicate n d) := rfl
    rw [hstep, ih, queue_turn, List.drop_tail]

theorem ordered_queue (q : Queues) (d : DeviceId) :
    (q.queue d).Pairwise (·.event.number < ·.event.number) :=
  q.ordered.sublist List.filter_sublist

/-- A command has been carried out when its device has gone on for it. -/
theorem notMem_finish {p : Pending} (hp : p ∈ (q.finish A d e).queue d) : p.event ≠ e := by
  rw [finish, queue_advance_replicate, ahead] at hp
  cases hfind : (q.queue d).findIdx? (·.event = e) with
  | none =>
    rw [hfind] at hp
    have hall := List.findIdx?_eq_none_iff.mp hfind p hp
    simpa using hall
  | some i =>
    rw [hfind] at hp
    obtain ⟨hi, hevent, -⟩ := List.findIdx?_eq_some_iff_getElem.mp hfind
    obtain ⟨j, hj, rfl⟩ := List.mem_iff_getElem.mp hp
    -- whatever stands behind the command has a higher number
    have hlt := List.pairwise_iff_getElem.mp (q.ordered_queue d) i (i + 1 + j) hi
      (by simp only [Option.elim_some, List.length_drop] at hj; omega) (by omega)
    rw [List.getElem_drop]
    intro heq
    have hevent : (q.queue d)[i].event = e := by simpa using hevent
    simp only [Option.elim_some] at heq
    rw [hevent, heq] at hlt
    exact Nat.lt_irrefl _ hlt

theorem queue_drain (q : Queues) (d : DeviceId) : (q.drain A d).queue d = [] := by
  rw [drain, queue_advance_replicate, List.drop_length]

theorem issued_advance (q : Queues) (ds : List DeviceId) : (q.advance A ds).issued = q.issued := by
  induction ds generalizing q with
  | nil => rfl
  | cons d rest ih => exact ih (q.turn A d)

end Order

end Queues

/-- What is beyond the control of a program: which calls fail, what the clocks say, and which
devices go on after a call, which may depend on what is pending. Calls are told apart by their
numbers. -/
structure World (V : Type) where
  arithmetic : Arithmetic V
  fault : Nat → Call → Option DeviceFault
  clock : Nat → Float
  turns : Nat → List Pending → List DeviceId

namespace World

/-- The same world, where each command is carried out as soon as it is enqueued. -/
def atOnce (w : World V) : World V := { w with turns := fun _ pending => pending.map (·.device) }

/-- A command is enqueued, or fails. -/
def accept (w : World V) (q : Queues) (d : DeviceId) (kind : CommandKind) (c : Call) :
    Except DeviceFault Event × Queues :=
  match w.fault q.issued c with
  | some e => (.error e, q.skip)
  | none => (.ok ⟨kind, q.issued⟩, q.push d kind c)

/-- The reply to a call, and the devices when it is given. -/
def answer (w : World V) : Handler Queues
  | .allocate d size type access, q =>
    match w.fault q.issued (.allocate d size type access) with
    | some e => (.error e, q.skip)
    | none => (.ok q.issued, q.newBuffer ⟨d, type, access, Array.replicate size type.zero⟩)
  | .write d b offset shape data, q => w.accept q d .write (.write d b offset shape data)
  | .read d b offset count cell cellOffset, q =>
    w.accept q d .read (.read d b offset count cell cellOffset)
  | .copy d source target count sourceOffset targetOffset, q =>
    w.accept q d .copy (.copy d source target count sourceOffset targetOffset)
  | .launch d source grid workgroup args, q =>
    w.accept q d .launch (.launch d source grid workgroup args)
  | .build d source, q =>
    match w.fault q.issued (.build d source) with
    | some e => (.error e, q.skip)
    | none => (.ok (), q.skip)
  | .wait d e, q => (.ok (), (q.finish w.arithmetic d e).skip)
  | .synchronize d, q =>
    match w.fault q.issued (.synchronize d) with
    | some e => (.error e, q.skip)
    | none => (.ok (), (q.drain w.arithmetic d).skip)
  | .hostArray count type, q =>
    let zero := match type with
      | .element t => t.zero
      | .foreign _ => .int 0
    (q.issued, q.newCell (Array.replicate count zero))
  | .hostContents cell offset count, q =>
    (((q.memory.cell cell).getD #[]).extract offset (offset + count), q.skip)
  | .clock, q => (w.clock q.issued, q.skip)
  | .report _, q => ((), q.skip)
  | .multiply .., q => ((), q.skip)

/-- The devices of a world as a handler of calls: after the reply, devices go on as the schedule
says. -/
def handle (w : World V) : Handler Queues := fun c q =>
  let r := w.answer c q
  (r.1, r.2.advance w.arithmetic (w.turns q.issued r.2.pending))

end World

end DistributedVector
