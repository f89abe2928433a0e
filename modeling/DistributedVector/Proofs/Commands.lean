import DistributedVector.Proofs.Places
import DistributedVector.Proofs.Exchange
import DistributedVector.Proofs.Settling
import DistributedVector.Proofs.Slots

/-!
# Commands in order

Transfers and copies are commands that are given one after the other, until one of them fails; the
events of those that are accepted are noted in shards, and waited for afterwards. All loops that
start commands are one loop over a list of moves, and what it asks of devices is this list, up to a
failure.

What is said about memories and about the exchanges with devices is proved apart and put together at
the end: a contract can be joined with a record of the exchanges.

## Main definitions

* `Contract.recorded` — a contract with a record of the exchanges with devices
* `Task.commands`, `unlessFailed` — the exchanges of a run, and its result if none has failed
* `Task.Proceeds`, `Task.Reports` — tasks that fail through devices only
* `Attempted` — commands given in order, until one fails
* `Move`, `Vector.start` — transfers and copies, and the loop that starts them
* `Call.stores`, `Call.loads`, `Call.copies` — what a command moves, place by place
* `Descriptor.note` — events noted in shards

## Main results

* `Task.Ensures.recorded`, `Task.Ensures.of_run_recorded` — judgements about memory and exchanges
* `Task.Reports.exists_run` — a run that returns what is expected, unless a command has failed
* `Program.Ensures.differs_of_idle` — runs without commands change no memory
* `Vector.start_proceeds`, `Vector.waitFor_proceeds` — commands are started, and waited for, in
  order
-/

namespace DistributedVector

/-! ## Exchanges with devices -/

namespace Exchange

/-- The event of a command that has been accepted. -/
def completion? : Exchange → Option Event
  | ⟨.write .., .ok e⟩ | ⟨.read .., .ok e⟩ | ⟨.copy .., .ok e⟩ | ⟨.launch .., .ok e⟩ => some e
  | _ => none

/-- The call that waits for a command that has been accepted. -/
def wait? (y : Exchange) : Option Call :=
  y.1.device.bind fun device => y.completion?.map (.wait device)

end Exchange

/-- The exchanges with devices among all exchanges. -/
def deviceSide (ys : List Exchange) : List Exchange := ys.filter fun y => y.1.device.isSome

/-- The fault of the first command that has failed. -/
def firstFault (ys : List Exchange) : Option DeviceFault := ys.findSome? Exchange.fault?

section Records

variable {α μ σ τ : Type} {K : Contract μ} {h : Handler σ} {view : σ → μ} {x : σ} {s : τ} {m : μ}
  {ys ys' : List Exchange}

@[simp] theorem deviceSide_append : deviceSide (ys ++ ys') = deviceSide ys ++ deviceSide ys' :=
  List.filter_append ..

@[simp] theorem firstFault_nil : firstFault [] = none := rfl

@[simp] theorem firstFault_append : firstFault (ys ++ ys') = (firstFault ys).or (firstFault ys') :=
  List.findSome?_append

@[simp] theorem firstFault_cons {y : Exchange} :
    firstFault (y :: ys) = y.fault?.or (firstFault ys) := by
  rw [firstFault, List.findSome?_cons]
  cases y.fault? <;> rfl

/-- The contract that every handler meets, with a record of the exchanges with devices. -/
def Contract.exchanging : Contract (List Exchange) where
  allows _ _ := True
  effect c ys r ys' := ys' = ys ++ deviceSide [⟨c, r⟩]

/-- A contract with a record of the exchanges with devices. -/
def Contract.recorded (K : Contract μ) : Contract (μ × List Exchange) where
  allows c x := K.allows c x.1
  effect c x r x' := K.effect c x.1 r x'.1 ∧ Contract.exchanging.effect c x.2 r x'.2

theorem Program.Ensures.recorded {p : Program α} {good : α → μ → Prop}
    {good' : α → List Exchange → Prop} (hp : p.Ensures K good m)
    (hp' : p.Ensures .exchanging good' ys) :
    p.Ensures K.recorded (fun a x => good a x.1 ∧ good' a x.2) (m, ys) := by
  induction p generalizing m ys with
  | pure a => exact ⟨hp, hp'⟩
  | call c next ih =>
    refine ⟨hp.1, ?_⟩
    -- both contracts agree on the reply, and each goes on with its own state
    rintro r ⟨m', ys'⟩ ⟨hm, hys⟩
    exact ih r (hp.2 r m' hm) (hp'.2 r ys' hys)

/-- What is ensured of the memory and what is ensured of the exchanges is ensured together. -/
theorem Task.Ensures.recorded {t : Task τ α} {good : α → τ → μ → Prop} {bad : Fault → τ → μ → Prop}
    {good' : α → τ → List Exchange → Prop} {bad' : Fault → τ → List Exchange → Prop}
    (ht : t.Ensures K good bad s m) (ht' : t.Ensures .exchanging good' bad' s ys) :
    t.Ensures K.recorded (fun a s' x => good a s' x.1 ∧ good' a s' x.2)
      (fun e s' x => bad e s' x.1 ∧ bad' e s' x.2) s (m, ys) := by
  apply (Program.Ensures.recorded ht ht').imp
  rintro ⟨_ | _, s'⟩ x hpost <;> exact hpost

/-- A judgement about memory and exchanges holds of a run and its exchanges with devices. -/
theorem Program.Ensures.of_recorded (meets : h.Meets view K) {p : Program α}
    {good : α → μ × List Exchange → Prop} (hp : p.Ensures K.recorded good (view x, ys)) :
    good (p.run h x).1 (view (p.run h x).2, ys ++ deviceSide (p.exchanges h x)) := by
  induction p generalizing x ys with
  | pure a =>
    rw [exchanges, deviceSide, List.filter_nil, List.append_nil]
    exact hp
  | call c next ih =>
    -- the first exchange joins the record, from which the rest goes on
    rw [exchanges, ← List.singleton_append, deviceSide_append, ← List.append_assoc]
    exact ih _ (hp.2 _ (view (h c x).2, _) ⟨meets c x hp.1, rfl⟩)

/-- The exchanges of a task with devices. -/
def Task.commands (h : Handler σ) (t : Task τ α) (s : τ) (x : σ) : List Exchange :=
  deviceSide ((t.runFrom s).exchanges h x)

/-- What is ensured of memory and exchanges holds of what a run of a task has returned and left. -/
theorem Task.Ensures.of_run_recorded (meets : h.Meets view K) {t : Task τ α}
    {good : α → τ → μ × List Exchange → Prop} {bad : Fault → τ → μ × List Exchange → Prop}
    (ht : t.Ensures K.recorded good bad s (view x, [])) {r : Except Fault α} {s' : τ} {x' : σ}
    (hrun : (t.runFrom s).run h x = ((r, s'), x')) :
    Task.outcome good bad (r, s') (view x', t.commands h s x) := by
  have hpost := Program.Ensures.of_recorded meets ht
  rwa [hrun] at hpost

/-- A result, unless a command has failed. -/
def unlessFailed (a : α) (ys : List Exchange) : Except Fault α :=
  (firstFault ys).elim (.ok a) fun f => .error (.device f)

theorem unlessFailed_of_none {a : α} (hok : firstFault ys = none) : unlessFailed a ys = .ok a := by
  rw [unlessFailed, hok]
  rfl

theorem unlessFailed_of_some {a : α} {f : DeviceFault} (hfault : firstFault ys = some f) :
    unlessFailed a ys = .error (.device f) := by
  rw [unlessFailed, hfault]
  rfl

/-- A task fails through devices only; what it leaves may depend on the fault. -/
def Task.Proceeds (t : Task τ α) (post : Option DeviceFault → τ → List Exchange → Prop) (s : τ)
    (ys : List Exchange) : Prop :=
  t.Ensures .exchanging (fun _ => post none)
    (fun e s' ys' => ∃ f, e = .device f ∧ post (some f) s' ys') s ys

theorem Task.Proceeds.imp {t : Task τ α}
    {post post' : Option DeviceFault → τ → List Exchange → Prop} (ht : t.Proceeds post s ys)
    (weaker : ∀ fault s' ys', post fault s' ys' → post' fault s' ys') :
    t.Proceeds post' s ys := by
  apply Task.Ensures.imp ht
  · exact fun _ => weaker none
  · rintro e s' ys' ⟨f, rfl, hpost⟩
    exact ⟨f, rfl, weaker (some f) s' ys' hpost⟩

/-- A task fails exactly if a command fails, with the fault of the first one that has. -/
def Task.Reports (t : Task τ α) (s : τ) : Prop :=
  ∀ ys, firstFault ys = none → t.Proceeds (fun fault _ ys' => firstFault ys' = fault) s ys

namespace Task

variable {β : Type}

theorem reports_pure (a : α) : (pure a : Task τ α).Reports s := fun _ hys => hys

theorem reports_get : (get : Task τ τ).Reports s := fun _ hys => hys

/-- A sequence reports what its parts report. -/
theorem Reports.bind {t : Task τ α} {f : α → Task τ β} (ht : t.Reports s)
    (hf : ∀ a s', (f a).Reports s') : (t >>= f).Reports s := by
  intro ys hys
  rw [Proceeds, ensures_bind]
  exact Task.Ensures.imp_ok (ht ys hys) fun a s' ys' hys' => hf a s' ys' hys'

/-- Behind a part that leaves the state alone the rest has to report from the same state only. -/
theorem Reports.bind_same {t : Task τ α} {f : α → Task τ β} (ht : t.Reports s)
    (hsame : t.Within (· = ·)) (hf : ∀ a, (f a).Reports s) : (t >>= f).Reports s := by
  intro ys hys
  rw [Proceeds, ensures_bind]
  refine ((ht ys hys).within hsame).imp ?_ fun _ _ _ h => h.1
  rintro a _ ys' ⟨hys', rfl⟩
  exact hf a ys' hys'

/-- Calls to the host cannot fail. -/
theorem reports_perform {c : Call} (hc : c.device = none) :
    (perform (Program.ask c) : Task τ c.Reply).Reports s := by
  intro ys hys
  rw [Proceeds, ensures_perform, Program.ensures_ask]
  refine ⟨trivial, ?_⟩
  rintro r _ rfl
  simpa [deviceSide, hc] using hys

theorem reports_read (device : DeviceId) (b : Option BufferId) (offset : Int) (n : Nat) (c : CellId)
    (cellOffset : Nat) :
    (issue (Program.ask (.read device b offset n c cellOffset)) : Task τ Event).Reports s := by
  intro ys hys
  rw [Proceeds, ensures_issue, Program.ensures_ask]
  refine ⟨trivial, ?_⟩
  rintro r _ rfl
  constructor <;> rintro _ rfl <;> simp [deviceSide, Call.device, Exchange.fault?, hys]

theorem reports_wait (device : DeviceId) (e : Event) :
    (issue (Program.ask (.wait device e)) : Task τ Unit).Reports s := by
  intro ys hys
  rw [Proceeds, ensures_issue, Program.ensures_ask]
  refine ⟨trivial, ?_⟩
  rintro r _ rfl
  constructor <;> rintro _ rfl <;> simp [deviceSide, Call.device, Exchange.fault?, hys]

/-- A run returns the one value that it may return, unless a command has failed. -/
theorem Reports.exists_run {t : Task τ α} {a : α} {post : τ → μ → Prop} (ht : t.Reports s)
    (meets : h.Meets view K) (hpost : t.Ensures K (fun a' s' m' => a' = a ∧ post s' m')
      (fun _ s' m' => post s' m') s (view x)) :
    ∃ s' x', (t.runFrom s).run h x = ((unlessFailed a (t.commands h s x), s'), x') ∧
      post s' (view x') := by
  obtain ⟨⟨⟨r, s'⟩, x'⟩, hrun⟩ : ∃ y, (t.runFrom s).run h x = y := ⟨_, rfl⟩
  have hrecorded := (hpost.recorded (ht [] rfl)).of_run_recorded meets hrun
  refine ⟨s', x', ?_, ?_⟩
  · rw [hrun]
    cases r with
    | ok a' =>
      obtain ⟨⟨rfl, -⟩, hfault⟩ := hrecorded
      rw [unlessFailed_of_none hfault]
    | error e =>
      obtain ⟨-, f, rfl, hfault⟩ := hrecorded
      rw [unlessFailed_of_some hfault]
  · cases r with
    | ok a' => exact hrecorded.1.2
    | error e => exact hrecorded.1

end Task

end Records

/-- A run that asks devices for nothing changes no memory, except that there may be new host
arrays. -/
theorem Program.Ensures.differs_of_idle {α σ V : Type} {A : Arithmetic V}
    {suits : DeviceId → KernelSource → Int → Prop} {h : Handler σ} {view : σ → Memory} {x : σ}
    (meets : h.Meets view (deviceContract A suits)) {p : Program α} {good : α → Memory → Prop}
    (hp : p.Ensures (deviceContract A suits) good (view x))
    (hidle : deviceSide (p.exchanges h x) = []) : (view x).Differs [] [] (view (p.run h x).2) := by
  induction p generalizing x with
  | pure a => exact .refl _ _ _
  | call c next ih =>
    rw [exchanges, ← List.singleton_append, deviceSide_append, List.append_eq_nil_iff] at hidle
    have heffect := meets c x hp.1
    have hrest := ih _ (hp.2 _ _ heffect) hidle.2
    refine Memory.Differs.trans_same ?_ hrest
    -- only calls to the host are left, and of these one makes an array
    cases c with
    | hostArray n type =>
      obtain ⟨hnew, a, -, hview⟩ := heffect
      rw [hview]
      exact .newCell a hnew
    | hostContents =>
      rw [heffect.1]
      exact .refl _ _ _
    | clock | report | multiply =>
      rw [show view (h _ x).2 = view x from heffect]
      exact .refl _ _ _
    | _ => cases hidle.1

/-! ## Commands in order -/

/-- Commands are given one after the other, until one of them fails. -/
inductive Attempted : List Call → List Exchange → Prop
  | done : Attempted [] []
  | failed {c : Call} {r : c.Reply} {cs : List Call} (fault : Exchange.fault? ⟨c, r⟩ ≠ none) :
    Attempted (c :: cs) [⟨c, r⟩]
  | passed {c : Call} {r : c.Reply} {cs : List Call} {ys : List Exchange}
    (accepted : Exchange.fault? ⟨c, r⟩ = none) (rest : Attempted cs ys) :
    Attempted (c :: cs) (⟨c, r⟩ :: ys)

namespace Attempted

variable {cs : List Call} {ys : List Exchange}

/-- What has been asked for is a beginning of the commands. -/
theorem isPrefix (h : Attempted cs ys) : ys.map (·.1) <+: cs := by
  induction h with
  | done => exact List.prefix_rfl
  | failed => exact ⟨_, rfl⟩
  | passed _ _ ih => exact List.cons_prefix_cons.mpr ⟨rfl, ih⟩

/-- Where nothing has failed, all commands have been given. -/
theorem map_eq (h : Attempted cs ys) (hok : firstFault ys = none) : ys.map (·.1) = cs := by
  induction h with
  | done => rfl
  | failed hfault =>
    rw [firstFault_cons, firstFault_nil, Option.or_none] at hok
    exact absurd hok hfault
  | passed haccepted _ ih =>
    rw [firstFault_cons, haccepted, Option.none_or] at hok
    rw [List.map_cons, ih hok]

end Attempted

/-! ## Moves -/

/-- A transfer or a copy. -/
inductive Move
  | write (device : DeviceId) (buffer : Option BufferId) (offset : Int) (data : Array Scalar)
  | read (device : DeviceId) (buffer : Option BufferId) (offset : Int) (count : Nat) (cell : CellId)
    (cellOffset : Nat)
  | copy (device : DeviceId) (source target : Option BufferId) (count : Nat)
    (sourceOffset targetOffset : Int)

namespace Move

/-- The device of a move. -/
def device : Move → DeviceId
  | write device .. | read device .. | copy device .. => device

/-- The call of a move with its reply. -/
def exchange : Move → Except DeviceFault Event → Exchange
  -- by cases, as the type of a reply depends on the call
  | write device buffer offset data, r => ⟨.write device buffer offset [data.size] data, r⟩
  | read device buffer offset count cell cellOffset, r =>
    ⟨.read device buffer offset count cell cellOffset, r⟩
  | copy device source target count sourceOffset targetOffset, r =>
    ⟨.copy device source target count sourceOffset targetOffset, r⟩

/-- The call of a move. -/
def call : Move → Call
  | write device buffer offset data => .write device buffer offset [data.size] data
  | read device buffer offset count cell cellOffset =>
    .read device buffer offset count cell cellOffset
  | copy device source target count sourceOffset targetOffset =>
    .copy device source target count sourceOffset targetOffset

/-- Asks for a move. -/
def ask : Move → Program (Except DeviceFault Event)
  | write device buffer offset data => Program.ask (.write device buffer offset [data.size] data)
  | read device buffer offset count cell cellOffset =>
    Program.ask (.read device buffer offset count cell cellOffset)
  | copy device source target count sourceOffset targetOffset =>
    Program.ask (.copy device source target count sourceOffset targetOffset)

variable {t : Move} {e : Event} {f : DeviceFault} {r : Except DeviceFault Event}

@[simp] theorem exchange_fst : (t.exchange r).1 = t.call := by cases t <;> rfl

@[simp] theorem device_call : t.call.device = some t.device := by cases t <;> rfl

@[simp] theorem fault?_ok : (t.exchange (.ok e)).fault? = none := by cases t <;> rfl

@[simp] theorem fault?_error : (t.exchange (.error f)).fault? = some f := by cases t <;> rfl

@[simp] theorem completion?_ok : (t.exchange (.ok e)).completion? = some e := by cases t <;> rfl

@[simp] theorem completion?_error : (t.exchange (.error f)).completion? = none := by cases t <;> rfl

theorem wait?_ok : (t.exchange (.ok e)).wait? = some (.wait t.device e) := by
  rw [Exchange.wait?, exchange_fst, device_call, completion?_ok]
  rfl

/-- The rule of a move: it is recorded with its reply, whichever it is. -/
theorem ensures_ask {good : Except DeviceFault Event → List Exchange → Prop} {ys : List Exchange} :
    t.ask.Ensures .exchanging good ys ↔ ∀ r, good r (ys ++ [t.exchange r]) := by
  cases t <;> exact ⟨fun h r => h.2 r _ rfl, fun h => ⟨trivial, fun r _ hys => hys ▸ h r⟩⟩

/-- A move that has been accepted has an event. -/
theorem exists_event {y : Exchange} (hcall : y.1 = t.call) (haccepted : y.fault? = none) :
    ∃ e, y = t.exchange (.ok e) := by
  obtain ⟨c, r⟩ := y
  cases t <;> cases hcall <;> cases r with
  | error f => cases haccepted
  | ok e => exact ⟨e, rfl⟩

theorem attempted_failed {cs : List Call} : Attempted (t.call :: cs) [t.exchange (.error f)] := by
  cases t <;> exact .failed (Option.some_ne_none f)

theorem attempted_passed {cs : List Call} {ys : List Exchange} (h : Attempted cs ys) :
    Attempted (t.call :: cs) (t.exchange (.ok e) :: ys) := by
  cases t <;> exact .passed rfl h

end Move

/-- What a write stores, place by place. -/
def Call.stores : Call → List (Place × Scalar)
  | .write device buffer offset _ data => (Place.row device buffer offset data.size).zip data.toList
  | _ => []

/-- What a read loads, with the positions in host arrays where it goes. -/
def Call.loads : Call → List (Place × CellId × Nat)
  | .read device buffer offset count cell cellOffset =>
    (Place.row device buffer offset count).zip
    ((List.range count).map fun j => (cell, cellOffset + j))
  | _ => []

/-- What a copy copies, with the places where it goes. -/
def Call.copies : Call → List (Place × Place)
  | .copy device source target count sourceOffset targetOffset =>
    (Place.row device source sourceOffset count).zip (Place.row device target targetOffset count)
  | _ => []

/-- The move that writes host data to a piece. -/
def Piece.writing (data : Array Scalar) (p : Piece) : Move :=
  .write p.device p.buffer p.localOffset (data.extract p.rangeOffset (p.rangeOffset + p.count))

/-- The move that reads a piece into a host array. -/
def Piece.reading (view : HostView) (p : Piece) : Move :=
  .read p.device p.buffer p.localOffset p.count view.cell (view.offset + p.rangeOffset)

/-- The move that copies what stays on its device. -/
def KeptPiece.copying (p : KeptPiece) : Move :=
  .copy p.device p.source p.target (p.stop - p.start) (p.start - p.oldStart : Nat)
    (p.start - p.newStart : Nat)

/-- A vector with the events of accepted commands noted in the given shards. -/
def Descriptor.note (d : Descriptor) : List Nat → List Exchange → Descriptor
  -- a command that was refused has no event, and its shard keeps the one it has
  | k :: ks, y :: ys => (y.completion?.elim d (d.setEvent k)).note ks ys
  | _, _ => d

namespace Descriptor

variable {d : Descriptor} {ks : List Nat} {ys : List Exchange}

@[simp] theorem forget_note : (d.note ks ys).forget = d.forget := by
  induction ks generalizing d ys with
  | nil => rfl
  | cons k rest ih =>
    cases ys with
    | nil => rfl
    | cons y ys =>
      rw [note, ih]
      cases y.completion? with
      | none => rfl
      | some e => exact d.forget_setEvent k e

/-- Only the given shards change. -/
theorem getElem?_note_of_notMem {k : Nat} (hk : k ∉ ks) :
    (d.note ks ys).shards[k]? = d.shards[k]? := by
  induction ks generalizing d ys with
  | nil => rfl
  | cons k' rest ih =>
    obtain ⟨hne, hrest⟩ := not_or.mp (fun h => hk (List.mem_cons.mpr h))
    cases ys with
    | nil => rfl
    | cons y ys =>
      rw [note, ih hrest]
      cases y.completion? with
      | none => rfl
      | some e => exact List.getElem?_modify_ne _ _ (Ne.symm hne)

end Descriptor

/-- The wait for the last command on a shard. -/
def Shard.wait? (s : Shard) : Option Call := s.event.map (.wait s.device)

namespace Vector

/-- Starts moves, and notes each of them in a shard. -/
def start : List (Nat × Move) → Task Descriptor Unit
  | [] => return ()
  | (k, t) :: rest => do
    let e ← issue t.ask
    modify (·.setEvent k e)
    start rest

theorem startWrites_eq (data : Array Scalar) (pieces : List Piece) :
    startWrites data pieces = start (pieces.map fun p => (p.shard, p.writing data)) := by
  induction pieces with
  | nil => rfl
  | cons p rest ih =>
    rw [startWrites, ih]
    rfl

theorem startReads_eq (view : HostView) (pieces : List Piece) :
    startReads view pieces = start (pieces.map fun p => (p.shard, p.reading view)) := by
  induction pieces with
  | nil => rfl
  | cons p rest ih =>
    rw [startReads, ih]
    rfl

theorem copyPieces_eq (pieces : List KeptPiece) :
    copyPieces pieces = start (pieces.map fun p => (p.shard, p.copying)) := by
  induction pieces with
  | nil => rfl
  | cons p rest ih =>
    rw [copyPieces, ih]
    rfl

variable {d : Descriptor} {ys : List Exchange}

/-- Moves have been attempted, and noted. -/
def Started (moves : List (Nat × Move)) (d : Descriptor) (ys : List Exchange)
    (fault : Option DeviceFault) (d' : Descriptor) (ys' : List Exchange) : Prop :=
  ∃ starts, ys' = ys ++ starts ∧ Attempted (moves.map (·.2.call)) starts ∧
    firstFault starts = fault ∧ d' = d.note (moves.map (·.1)) starts

/-- Moves are started in order until one fails, and noted. -/
theorem start_proceeds {moves : List (Nat × Move)} :
    (start moves).Proceeds (Started moves d ys) d ys := by
  induction moves generalizing d ys with
  | nil => exact ⟨[], (List.append_nil _).symm, .done, rfl, rfl⟩
  | cons head rest ih =>
    obtain ⟨k, t⟩ := head
    rw [start, Task.Proceeds, Task.ensures_bind, ensures_issue, Move.ensures_ask]
    refine fun r => ⟨?_, ?_⟩
    · -- the rest is started with this event noted
      rintro e rfl
      rw [Task.ensures_bind, Task.ensures_modify]
      refine Task.Proceeds.imp ih ?_
      rintro fault d' _ ⟨starts, rfl, hattempted, hfault, rfl⟩
      refine ⟨t.exchange (.ok e) :: starts, by simp,
        t.attempted_passed hattempted, by simpa using hfault, ?_⟩
      simp [Descriptor.note]
    · -- nothing is started any more
      rintro f rfl
      exact ⟨f, rfl, [t.exchange (.error f)], rfl,
        t.attempted_failed, by simp, by simp [Descriptor.note]⟩

theorem forall₂_of_attempted {moves : List (Nat × Move)} {starts : List Exchange}
    (h : Attempted (moves.map (·.2.call)) starts) (hok : firstFault starts = none) :
    List.Forall₂ (fun x y => ∃ e, y = x.2.exchange (.ok e)) moves starts := by
  induction moves generalizing starts with
  | nil =>
    cases h
    exact .nil
  | cons x rest ih =>
    have hmap := h.map_eq hok
    cases starts with
    | nil => cases hmap
    | cons y starts =>
      rw [firstFault_cons, Option.or_eq_none_iff] at hok
      have hcall : y.1 = x.2.call := (List.cons.inj hmap).1
      refine .cons (Move.exists_event hcall hok.1) (ih ?_ hok.2)
      cases h with
      | failed hfault => exact absurd hok.1 hfault
      | passed _ hrest => exact hrest

/-- Where all moves have been accepted, the shards have their events. -/
theorem event?_note {moves : List (Nat × Move)} {starts : List Exchange}
    (haccepted : List.Forall₂ (fun x y => ∃ e, y = x.2.exchange (.ok e)) moves starts)
    (hdistinct : (moves.map (·.1)).Nodup) (hin : ∀ x ∈ moves, x.1 < d.shards.length) :
    List.Forall₂ (fun x y => (d.note (moves.map (·.1)) starts).event? x.1 = y.completion?)
      moves starts := by
  induction haccepted generalizing d with
  | nil => exact .nil
  | @cons x y moves starts hy hrest ih =>
    obtain ⟨k, t⟩ := x
    obtain ⟨e, rfl⟩ := hy
    -- `d` varies: the rest starts from the vector with the first event noted
    obtain ⟨hnot, hdistinct⟩ := List.nodup_cons.mp hdistinct
    have hlength : (d.setEvent k e).shards.length = d.shards.length := List.length_modify ..
    have hnote : d.note (((k, t) :: moves).map (·.1)) (t.exchange (.ok e) :: starts) =
        (d.setEvent k e).note (moves.map (·.1)) starts := by
      simp [Descriptor.note]
    rw [hnote]
    -- the other moves are noted in other shards
    refine .cons ?_ (ih hdistinct fun x hx => hlength.symm ▸ hin x (List.mem_cons_of_mem _ hx))
    have hk : k < d.shards.length := hin _ List.mem_cons_self
    rw [Descriptor.event?, Descriptor.getElem?_note_of_notMem hnot, Move.completion?_ok]
    simp [Descriptor.setEvent, List.getElem?_eq_getElem hk]

/-- The wait for the last command that a vector has noted for a piece. -/
def waitOf (d : Descriptor) (p : Piece) : Option Call := (d.event? p.shard).map (.wait p.device)

/-- Where all commands for pieces have been accepted and noted, the waits for what has been noted
are those for the commands. -/
theorem filterMap_waitOf {pieces : List Piece} {f : Piece → Move} {starts : List Exchange}
    {ks : List Nat} (hdevice : ∀ p, (f p).device = p.device)
    (haccepted : List.Forall₂ (fun x y => ∃ e, y = x.2.exchange (.ok e))
      (pieces.map fun p => (p.shard, f p)) starts)
    (hevents : List.Forall₂ (fun x y => (d.note ks ys).event? x.1 = y.completion?)
      (pieces.map fun p => (p.shard, f p)) starts) :
    pieces.filterMap (waitOf (d.note ks ys)) = starts.filterMap Exchange.wait? := by
  induction pieces generalizing starts with
  | nil =>
    cases haccepted
    rfl
  | cons p rest ih =>
    obtain ⟨y, starts, ⟨e, rfl⟩, hrest, rfl⟩ := List.forall₂_cons_left_iff.mp haccepted
    obtain ⟨hevent, hevents⟩ := List.forall₂_cons.mp hevents
    -- what is noted for the first piece is the event of its command
    have hwait : waitOf (d.note ks ys) p = some (.wait p.device e) := by
      rw [waitOf, hevent, Move.completion?_ok]
      rfl
    rw [List.filterMap_cons_some hwait, List.filterMap_cons_some Move.wait?_ok, hdevice p,
      ih hrest hevents]

/-- Waits have been attempted, and nothing else has happened. -/
def Awaited {τ : Type} (cs : List Call) (s : τ) (ys : List Exchange)
    (fault : Option DeviceFault) (s' : τ) (ys' : List Exchange) : Prop :=
  s' = s ∧ ∃ waits, ys' = ys ++ waits ∧ Attempted cs waits ∧ firstFault waits = fault

/-- A wait comes before other ones. -/
theorem wait_proceeds {τ : Type} {s : τ} {device : DeviceId} {e : Event} {cs : List Call}
    {rest : Task τ Unit} (hrest : ∀ ys, rest.Proceeds (Awaited cs s ys) s ys) :
    (do issue (Program.ask (.wait device e)); rest : Task τ Unit).Proceeds
      (Awaited (.wait device e :: cs) s ys) s ys := by
  rw [Task.Proceeds, Task.ensures_bind, ensures_issue]
  refine ⟨trivial, ?_⟩
  rintro r _ rfl
  refine ⟨?_, ?_⟩
  · rintro ⟨⟩ rfl
    refine Task.Proceeds.imp (hrest _) ?_
    rintro fault s' _ ⟨rfl, waits, rfl, hattempted, hfault⟩
    exact ⟨rfl, ⟨.wait device e, .ok ()⟩ :: waits, List.append_assoc ..,
      .passed rfl hattempted, hfault⟩
  · rintro f rfl
    exact ⟨f, rfl, rfl, [⟨.wait device e, .error f⟩], rfl, .failed (Option.some_ne_none f), rfl⟩

/-- A transfer waits for what has been noted. -/
theorem waitFor_proceeds {pieces : List Piece} :
    (waitFor pieces).Proceeds (Awaited (pieces.filterMap (waitOf d)) d ys) d ys := by
  induction pieces generalizing ys with
  | nil => exact ⟨rfl, [], (List.append_nil _).symm, .done, rfl⟩
  | cons p rest ih =>
    rw [waitFor, Task.Proceeds, Task.ensures_bind, Task.ensures_get, List.filterMap_cons, waitOf]
    -- a piece without an event is passed over
    cases d.event? p.shard with
    | none => exact ih
    | some e => exact wait_proceeds fun _ => ih

/-- Copies are waited for in order. -/
theorem waitAll_proceeds {τ : Type} {s : τ} {shards : List Shard} :
    (waitAll shards).Proceeds (Awaited (shards.filterMap Shard.wait?) s ys) s ys := by
  induction shards generalizing ys with
  | nil => exact ⟨rfl, [], (List.append_nil _).symm, .done, rfl⟩
  | cons shard rest ih =>
    rw [waitAll, List.filterMap_cons, Shard.wait?]
    cases shard.event with
    | none => exact ih
    | some e => exact wait_proceeds fun _ => ih

end Vector

end DistributedVector
