import DistributedVector.Proofs.Coverage
import DistributedVector.Proofs.Settling

/-!
# Asynchronous queues give the synchronous answers

A program on the host runs operations on vectors, starts reads that it does not wait for,
synchronizes vectors, opens sessions, and works on its own arrays, and what it does next depends on
what it has seen so far. Devices with queues go on in between in any interleaving. As long as the
program leaves alone what is about to be stored into its arrays, it sees the same as on devices that
carry out each command as soon as it is enqueued.

What an operation reads it waits for, and nothing is pending on a vector that has been synchronized.
For the rest, operations keep to what both kinds of devices allow: vectors stay valid, as they will
be when all devices have settled, and the slots of all vectors say enough.

## Main definitions

* `Site` — a store with its devices
* `Step`, `Script` — programs on the host
* `Step.run`, `Script.run` — what they see, and what they leave behind
* `Step.Given`, `Step.Patient`, `Script.Along` — the arrays that are given are there, and those that
  are about to be stored into are left alone

## Main results

* `Site.Ready.step` — one step
* `Script.run_atOnce` — all programs, in every interleaving
-/

namespace DistributedVector

/-- A store with its devices. -/
structure Site where
  store : Store
  queues : Queues

/-- What a program on the host does next. -/
inductive Step
  /-- runs an operation on vectors -/
  | operation (op : Operation)
  /-- starts to read a range, without waiting for it -/
  | fetch (v : VectorId) (offset count : Int) (goal : Vector.ReadTarget)
  /-- synchronizes the devices of a vector -/
  | synchronize (v : VectorId)
  /-- opens a session -/
  | session (config : SessionConfig) (strategy : Option Strategy)
  /-- makes an array -/
  | array (a : Array Scalar)
  /-- writes over elements of an array -/
  | change (c : CellId) (offset : Nat) (values : List Scalar)
  /-- looks at elements of an array -/
  | look (view : HostView)

/-- What a program sees of a step. After a vector has been synchronized, this is what it holds. -/
inductive Outcome
  | answer (r : Except Fault Answer)
  | view (r : Except Fault HostView)
  | elements (r : Except Fault (Option (List Scalar)))
  | array (c : CellId)
  | values (a : Array Scalar)
  | done

/-- A program on the host. -/
inductive Script
  | done
  | step (s : Step) (next : Outcome → Script)

variable {V : Type} {A : Arithmetic V} {α : Type}

namespace Site

/-- No vectors, and devices of which nothing has been asked yet. -/
def start : Site := ⟨⟨#[], #[]⟩, .start⟩

/-- The store with its devices when all that is pending has been carried out. -/
def settle (A : Arithmetic V) (s : Site) : Site := ⟨s.store, s.queues.settle A⟩

/-- Devices go on. -/
def goOn (w : World V) (s : Site) : Site :=
  ⟨s.store, s.queues.advance w.arithmetic (w.turns s.queues.issued s.queues.pending)⟩

/-- Runs a task. -/
def run (w : World V) (t : Task Store α) (s : Site) : Except Fault α × Site :=
  let r := (t.runFrom s.store).run w.handle s.queues
  (r.1.1, ⟨r.1.2, r.2⟩)

/-- The calls of a task. -/
def calls (w : World V) (t : Task Store α) (s : Site) : List Call :=
  (t.runFrom s.store).calls w.handle s.queues

end Site

section Runs

variable (w : World V) (hardware : Hardware)

/-- What a program sees of a step, and what the step leaves behind. -/
def Step.run : Step → Site → Outcome × Site
  | operation op, s =>
    let r := s.run w op.run
    (.answer r.1, r.2)
  | fetch v offset count goal, s =>
    let r := s.run w (Store.onVector v (Vector.read offset count goal false))
    (.view r.1, r.2)
  | synchronize v, s =>
    let r := s.run w (Store.onVector v Vector.synchronize)
    (.elements (r.1.map fun _ => (r.2.store.vectors[v]?).map (·.contents r.2.queues.memory)), r.2)
  | session config strategy, s =>
    (.done, (Site.mk { s.store with
      sessions := s.store.sessions.push (.create config hardware strategy) } s.queues.skip).goOn w)
  | array a, s => (.array s.queues.issued, (Site.mk s.store (s.queues.newCell a)).goOn w)
  | change c offset values, s =>
    (.done, (Site.mk s.store (s.queues.change c offset values).skip).goOn w)
  | look view, s =>
    (.values (((s.queues.memory.cell view.cell).getD #[]).extract view.offset
      (view.offset + view.size)), (Site.mk s.store s.queues.skip).goOn w)

/-- The calls of a step. -/
def Step.calls : Step → Site → List Call
  | operation op, s => s.calls w op.run
  | fetch v offset count goal, s =>
    s.calls w (Store.onVector v (Vector.read offset count goal false))
  | synchronize v, s => s.calls w (Store.onVector v Vector.synchronize)
  | _, _ => []

/-- What a program sees, and what it leaves behind. -/
def Script.run : Script → Site → List Outcome × Site
  | done, s => ([], s)
  | step x next, s =>
    let r := x.run w hardware s
    let rest := (next r.1).run r.2
    (r.1 :: rest.1, rest.2)

/-- The calls of a program. -/
def Script.calls : Script → Site → List Call
  | done, _ => []
  | step x next, s =>
    let r := x.run w hardware s
    x.calls w s ++ (next r.1).calls r.2

/-- Each step that a program takes is as required. -/
def Script.Along (required : Step → Site → Prop) : Script → Site → Prop
  | done, _ => True
  | step x next, s =>
    let r := x.run w hardware s
    required x s ∧ (next r.1).Along required r.2

end Runs

/-- The host arrays that a step is given are there, and the settings of a session are accepted. -/
def Step.Given : Step → Site → Prop
  | operation op, s => op.Fits (s.store.plain s.queues.memory)
  | fetch _ _ _ goal, s => (s.store.plain s.queues.memory).Receives goal
  | session config _, _ => config.validate = .ok config
  | _, _ => True

/-- A step leaves alone those elements of host arrays that are about to be stored into. What an
operation reads for its answer, it waits for. -/
def Step.Patient : Step → Site → Prop
  | operation op, s => op.Waits ∧ op.Known (·.Free s.queues.pending)
  | fetch _ _ _ goal, s => ∀ view, goal = .array view → view.Free s.queues.pending
  | change c offset values, s => Free s.queues.pending c offset (offset + values.length)
  | look view, s => view.Free s.queues.pending
  | _, _ => True

namespace Site

variable {w : World V} {hardware : Hardware} {s s' s'' : Site} {cs cs' : List Call}

/-- Vectors are going to be valid, slots say enough, and devices do not get into each other's
way. -/
structure Ready (w : World V) (hardware : Hardware) (s : Site) : Prop where
  valid : s.store.Valid (.unrestricted hardware) (s.queues.settled w.arithmetic)
  covered : s.store.Covered s.queues.memory.allocated s.queues.pending
  separate : s.queues.Separate

/-- What calls have made of a store and its devices: the calls were about buffers of the devices
that they were issued on. -/
structure Leads (w : World V) (hardware : Hardware) (s : Site) (cs : List Call) (s' : Site) :
    Prop where
  ready : s'.Ready w hardware
  more : s.queues.memory.Extends s'.queues.memory
  calls : ∀ c ∈ cs, ∀ d, c.device = some d → c.On d s'.queues.memory

theorem Leads.trans (h : s.Leads w hardware cs s') (h' : s'.Leads w hardware cs' s'') :
    s.Leads w hardware (cs ++ cs') s'' := by
  refine ⟨h'.ready, h.more.trans h'.more, fun c hc d hd => ?_⟩
  rcases List.mem_append.mp hc with hc | hc
  · exact (h.calls c hc d hd).mono h'.more
  · exact h'.calls c hc d hd

/-- A task that keeps to what both kinds of devices allow. -/
theorem Ready.run {t : Task Store α} (hs : s.Ready w hardware)
    (h : t.Ensures (deviceContract w.arithmetic fun _ _ _ => True)
      (fun _ S' m' => S'.Valid (.unrestricted hardware) m')
      (fun _ S' m' => S'.Valid (.unrestricted hardware) m') s.store (s.queues.settled w.arithmetic))
    (h' : t.Ensures (queueing True) (fun _ S' x => S'.Covered x.1 x.2)
      (fun _ S' x => S'.Covered x.1 x.2) s.store s.queues.view) :
    (s.settle w.arithmetic).run w.atOnce t =
        ((s.run w t).1, (s.run w t).2.settle w.arithmetic) ∧
      s.Leads w hardware (s.calls w t) (s.run w t).2 := by
  obtain ⟨hrun, hseparate, hmore, hvalid, hcovered, hcalls⟩ :=
    Program.run_settle w hs.separate h h'
  have hafter : ∀ {μ : Type} {P : Store → μ → Prop} {r : Except Fault α × Store} {m : μ},
      Task.outcome (fun _ => P) (fun _ => P) r m → P r.2 m := by
    rintro μ P ⟨_ | _, S'⟩ m h <;> exact h
  refine ⟨?_, ⟨hafter hvalid, hafter hcovered, hseparate⟩, hmore, hcalls⟩
  unfold Site.run settle
  rw [hrun]

/-- What happens on the host makes no calls; then devices go on. -/
theorem Ready.goOn (hready : s'.Ready w hardware)
    (hmore : s.queues.memory.Extends s'.queues.memory) :
    (s'.settle w.arithmetic).goOn w.atOnce = (s'.goOn w).settle w.arithmetic ∧
      s.Leads w hardware [] (s'.goOn w) := by
  obtain ⟨hvalid, hcovered, hseparate⟩ := hready
  obtain ⟨hsettled, hrest⟩ := Queues.settled_advance (A := w.arithmetic) hseparate
    (w.turns s'.queues.issued s'.queues.pending)
  refine ⟨?_, ⟨?_, ?_, hrest⟩, hmore.trans (Queues.extends_advance _ _),
    fun _ hc => absurd hc List.not_mem_nil⟩
  · exact congrArg (Site.mk s'.store) (Queues.settle_advance hseparate _).symm
  · exact hsettled ▸ hvalid
  · have hadvanced := hcovered.advances (Queues.advances_advance (A := w.arithmetic) s'.queues
      (w.turns s'.queues.issued s'.queues.pending))
    rwa [← Queues.allocated_advance (A := w.arithmetic)] at hadvanced

/-- A vector on whose devices nothing is pending holds what it is going to hold. -/
theorem Ready.contents_settled (hs : s.Ready w hardware) {v : VectorId} {d : Descriptor}
    (hv : s.store.vectors[v]? = some d) (hnone : ∀ p ∈ s.queues.pending, p.device ∉ d.devices) :
    d.contents (s.queues.settled w.arithmetic) = d.contents s.queues.memory := by
  refine Descriptor.contents_congr fun b hb =>
    Queues.buffer_settled fun p hp hholds => hnone p hp ?_
  obtain ⟨shard, hshard, hbuffer⟩ := mem_buffersOf.mp hb
  have howned := ((hs.covered.owned.vectors v d hv).each shard hshard).present b hbuffer
  obtain ⟨o, ho, hdevice⟩ := (hs.separate.each p hp).own b hholds.names
  rw [← hdevice, ← Option.some_inj.mp (howned.symm.trans ho)]
  exact List.mem_map_of_mem hshard

/-- Nothing is pending on the devices of a vector that has been synchronized. -/
theorem run_synchronize {v : VectorId} {u : Unit}
    (hrun : (s.run w (Store.onVector v Vector.synchronize)).1 = .ok u) {d : Descriptor}
    (hv : (s.run w (Store.onVector v Vector.synchronize)).2.store.vectors[v]? = some d) :
    ∀ p ∈ (s.run w (Store.onVector v Vector.synchronize)).2.queues.pending,
    p.device ∉ d.devices := by
  have hall : (Store.onVector v Vector.synchronize).Ensures (queueing False)
      (fun _ S' x => ∀ d, S'.vectors[v]? = some d → ∀ p ∈ x.2, p.device ∉ d.devices)
      (fun _ _ _ => True) s.store s.queues.view := by
    rw [Store.onVector_ensures]
    refine ⟨fun d hv => ?_, fun _ => trivial⟩
    rw [Vector.synchronize, Task.ensures_bind, Task.ensures_get]
    refine (Vector.drain_empties d.devices).imp ?_ fun _ _ _ _ => trivial
    rintro - d' x ⟨rfl, -, hnone⟩ e he
    rw [setIfInBounds_eq_self hv, hv] at he
    exact Option.some_inj.mp he ▸ hnone
  exact hall.of_run_ok w.meets (a := u) (Prod.ext (Prod.ext hrun rfl) rfl) d hv

end Site

section Steps

variable {w : World V} {hardware : Hardware} {s : Site}

open Site

/-- Host arrays keep their sizes while devices settle. -/
theorem Site.shows_settled {view : HostView} (h : (s.store.plain s.queues.memory).Shows view) :
    (s.store.plain (s.queues.settled w.arithmetic)).Shows view := by
  obtain ⟨a, ha, hroom⟩ := h
  have hsize := s.queues.size_cell_settled (A := w.arithmetic) view.cell
  have ha : s.queues.memory.cell view.cell = some a := ha
  rw [ha, Option.map_some, Option.map_eq_some_iff] at hsize
  obtain ⟨a', ha', hsize⟩ := hsize
  exact ⟨a', ha', hsize ▸ hroom⟩

/-- Waiting for a vector. What it holds then is what it is going to hold, since nothing is pending
on its devices. -/
theorem Site.Ready.synchronize (hs : s.Ready w hardware) (v : VectorId) :
    (Step.synchronize v).run w.atOnce hardware (s.settle w.arithmetic) =
        (((Step.synchronize v).run w hardware s).1,
          ((Step.synchronize v).run w hardware s).2.settle w.arithmetic) ∧
      s.Leads w hardware ((Step.synchronize v).calls w s)
        ((Step.synchronize v).run w hardware s).2 := by
  have hvalid : (Store.onVector v Vector.synchronize).Ensures
      (deviceContract w.arithmetic fun _ _ _ => True)
      (fun _ S' m' => S'.Valid (.unrestricted hardware) m')
      (fun _ S' m' => S'.Valid (.unrestricted hardware) m') s.store
      (s.queues.settled w.arithmetic) := by
    rw [Store.onVector_ensures]
    refine ⟨fun d hv => ?_, fun _ => hs.valid⟩
    rw [Vector.synchronize, Task.ensures_bind, Task.ensures_get]
    have hsame := hs.valid
    rw [← Store.put_self hv] at hsame
    exact Vector.drain_ensures hsame fun _ => hsame
  have htends : Store.Tends True (fun _ => False) (Store.onVector v Vector.synchronize) :=
    Store.onVector_tends Vector.synchronize_keeps v
  have hcovered := htends.finishes s.store s.queues.memory.allocated s.queues.pending hs.covered
    fun _ _ h => h.elim
  obtain ⟨hrun, hleads⟩ := hs.run hvalid hcovered
  refine ⟨?_, hleads⟩
  simp only [Step.run, hrun]
  -- both runs end alike, and what they show is the same once the devices of the vector are drained
  refine Prod.ext (congrArg Outcome.elements ?_) rfl
  cases hok : (s.run w (Store.onVector v Vector.synchronize)).1 with
  | error e => rfl
  | ok u =>
    apply congrArg Except.ok
    cases hv : (s.run w (Store.onVector v Vector.synchronize)).2.store.vectors[v]? with
    | none => simp only [settle, hv, Option.map_none]
    | some d =>
      have hcontents := hleads.ready.contents_settled hv (run_synchronize hok hv)
      simp only [settle, hv, Option.map_some]
      exact congrArg some hcontents

/-- A step does the same on devices with queues, when they will have settled, and on devices that
carry out each command as soon as it is enqueued. -/
theorem Site.Ready.step (hs : s.Ready w hardware) {x : Step} (hgiven : x.Given s)
    (hpatient : x.Patient s) :
    x.run w.atOnce hardware (s.settle w.arithmetic) =
        ((x.run w hardware s).1, (x.run w hardware s).2.settle w.arithmetic) ∧
      s.Leads w hardware (x.calls w s) (x.run w hardware s).2 := by
  cases x with
  | operation op =>
    -- the operation is judged by the memory that there will be when devices have settled
    have huses : op.Uses (.unrestricted hardware) := by
      cases op <;> exact trivial
    have hvalid := Operation.run_ensures (A := w.arithmetic) hs.valid (.self _ _)
      (hgiven.mono fun _ => shows_settled) huses
    have hfinishes : Store.Finishes True _ op.run :=
      Operation.run_finishes hpatient.2 fun _ => hpatient.1
    have hcovered :=
      hfinishes s.store s.queues.memory.allocated s.queues.pending hs.covered fun _ _ h => h
    obtain ⟨hrun, hleads⟩ := hs.run (hvalid.imp (fun _ _ _ h => h.1) fun _ _ _ h => h) hcovered
    refine ⟨?_, hleads⟩
    simp only [Step.run, hrun]
  | fetch v offset count goal =>
    have hgoal : (s.store.plain (s.queues.settled w.arithmetic)).Receives goal := by
      cases goal with
      | array view => exact shows_settled hgiven
      | _ => trivial
    obtain ⟨hrun, hleads⟩ := hs.run
      ((Store.onVector_read_ensures hs.valid (.self _ _) hgoal).imp (fun _ _ _ h => h.1)
        fun _ _ _ h => h)
      ((Store.read_ensures_tends v offset count false hs.covered fun _ => hpatient).imp
        (fun _ _ _ h => h.1) fun _ _ _ h => h)
    refine ⟨?_, hleads⟩
    simp only [Step.run, hrun]
  | synchronize v => exact hs.synchronize v
  -- the host does the rest by itself: devices only go on, and have to stay ready
  | session config strategy =>
    have hready : Ready w hardware ⟨_, s.queues.skip⟩ :=
      ⟨hs.valid.openSession hgiven fun _ _ _ _ _ => trivial,
        hs.covered.openSession hgiven hardware strategy,
        hs.separate.mono (fun _ hp => hp) (.refl _)⟩
    obtain ⟨hrun, hleads⟩ := Ready.goOn (s := s) hready (.refl _)
    exact ⟨congrArg (Prod.mk Outcome.done) hrun, hleads⟩
  | array a =>
    have hsettle := Queues.settle_newCell (A := w.arithmetic) hs.separate a
    have hmore := s.queues.extends_newCell a
    have hready : Ready w hardware ⟨s.store, s.queues.newCell a⟩ :=
      ⟨hs.valid.of_buffer_eq (congrArg (·.memory.buffer) hsettle), hs.covered,
        hs.separate.mono (fun _ hp => hp) hmore⟩
    obtain ⟨hrun, hleads⟩ := Ready.goOn (s := s) hready hmore
    rw [settle, hsettle] at hrun
    exact ⟨congrArg (Prod.mk (Outcome.array _)) hrun, hleads⟩
  | change c offset values =>
    have hsettle := Queues.settle_change (A := w.arithmetic) hpatient
    have hmore := s.queues.extends_change c offset values
    have hready : Ready w hardware ⟨s.store, (s.queues.change c offset values).skip⟩ :=
      ⟨hs.valid.of_buffer_eq (congrArg (·.memory.buffer) hsettle), hs.covered,
        hs.separate.mono (fun _ hp => hp) hmore⟩
    obtain ⟨hrun, hleads⟩ := Ready.goOn (s := s) hready hmore
    have hskip : (s.queues.change c offset values).skip.settle w.arithmetic =
        ((s.queues.settle w.arithmetic).change c offset values).skip := congrArg Queues.skip hsettle
    rw [settle, hskip] at hrun
    exact ⟨congrArg (Prod.mk Outcome.done) hrun, hleads⟩
  | look view =>
    have hready : Ready w hardware ⟨s.store, s.queues.skip⟩ :=
      ⟨hs.valid, hs.covered, hs.separate.mono (fun _ hp => hp) (.refl _)⟩
    obtain ⟨hrun, hleads⟩ := Ready.goOn (s := s) hready (.refl _)
    exact ⟨Prod.ext (congrArg Outcome.values (Queues.extract_settled hpatient)) hrun, hleads⟩

/-- Nothing of what comes later can be told apart either. -/
theorem Site.Ready.script (hs : s.Ready w hardware) {p : Script}
    (hgiven : p.Along w hardware Step.Given s) (hpatient : p.Along w hardware Step.Patient s) :
    p.run w.atOnce hardware (s.settle w.arithmetic) =
        ((p.run w hardware s).1, (p.run w hardware s).2.settle w.arithmetic) ∧
      s.Leads w hardware (p.calls w hardware s) (p.run w hardware s).2 := by
  induction p generalizing s with
  | done => exact ⟨rfl, hs, .refl _, fun _ hc => absurd hc List.not_mem_nil⟩
  | step x next ih =>
    obtain ⟨hrun, hleads⟩ := hs.step hgiven.1 hpatient.1
    obtain ⟨hrest, hleads'⟩ := ih _ hleads.ready hgiven.2 hpatient.2
    refine ⟨?_, hleads.trans hleads'⟩
    simp only [Script.run, hrun, hrest]

/-- Nothing has been asked of the devices yet. -/
theorem Site.ready_start : Site.start.Ready w hardware :=
  ⟨.empty _ _, .empty _, Queues.separate_start⟩

/-- Whatever a program does that leaves alone what is about to be stored into its arrays, and
however the queues of different devices advance: it sees what it sees on devices that carry out each
command as soon as it is enqueued, and leaves the same vectors and, when all that is pending has
been carried out, the same memory. Each call of a device names only buffers that have been allocated
on it. -/
theorem Script.run_atOnce (w : World V) (hardware : Hardware) (p : Script)
    (hgiven : p.Along w hardware Step.Given .start)
    (hpatient : p.Along w hardware Step.Patient .start) :
    p.run w.atOnce hardware .start =
        ((p.run w hardware .start).1, (p.run w hardware .start).2.settle w.arithmetic) ∧
      ∀ c ∈ p.calls w hardware .start, ∀ b, c.Names b → ∃ d buf, c.device = some d ∧
        (p.run w hardware .start).2.queues.memory.buffer b = some buf ∧ buf.device = d := by
  obtain ⟨hrun, hleads⟩ := Site.ready_start.script hgiven hpatient
  refine ⟨hrun, fun c hc b hb => ?_⟩
  obtain ⟨d, hd⟩ := hb.exists_device
  obtain ⟨o, ho, hdevice⟩ := (hleads.calls c hc d hd).own b hb
  obtain ⟨buf, hbuf, rfl⟩ := Option.map_eq_some_iff.mp ho
  exact ⟨d, buf, hd, hbuf, hdevice⟩

end Steps

namespace Sample

/-- Looks at an array that is being filled, when the vector has been synchronized. -/
def await : Outcome → Script
  | .view (.ok view) => .step (.synchronize 0) fun _ => .step (.look view) fun _ => .done
  | _ => .done

/-- Writes three elements without waiting for them, gets one of them, and reads all without
waiting. -/
def script : Script :=
  .step (.session {} (some .equally)) fun _ =>
  .step (.operation three) fun _ =>
  .step (.operation (.write 0 0 3 (.list [.int 1, .int 2, .int 3]) false)) fun _ =>
  .step (.operation (.get 0 (.int 2))) fun _ =>
  .step (.fetch 0 0 3 .fresh) await

theorem given_await (o : Outcome) (s : Site) : (await o).Along lazy hardware Step.Given s := by
  unfold await
  split
  · exact ⟨trivial, trivial, trivial⟩
  · exact trivial

theorem patient_await {s : Site}
    (h : ((Step.synchronize 0).run lazy hardware s).2.queues.pending = []) (o : Outcome) :
    (await o).Along lazy hardware Step.Patient s := by
  unfold await
  split
  · refine ⟨trivial, ?_, trivial⟩
    rintro i - - ⟨p, hp, -⟩
    rw [h] at hp
    exact absurd hp List.not_mem_nil
  · exact trivial

theorem given_script : script.Along lazy hardware Step.Given .start :=
  ⟨rfl, Plain.offers_count _ _, trivial, trivial, trivial, given_await _ _⟩

theorem patient_script : script.Along lazy hardware Step.Patient .start := by
  refine ⟨trivial, ⟨trivial, And.intro (fun _ h => ?_) fun _ h => ?_⟩, ⟨trivial, trivial⟩,
    ⟨trivial, trivial⟩, fun _ h => ?_, patient_await ?_ _⟩
  · cases h
  · cases h
  · cases h
  · exact List.length_eq_zero_iff.mp (by decide +kernel)

end Sample

/-- Transfers of a vector on two devices, which are waited for at the end only. -/
theorem Script.run_atOnce_script :
    Sample.script.run Sample.lazy.atOnce Sample.hardware .start =
      ((Sample.script.run Sample.lazy Sample.hardware .start).1,
        (Sample.script.run Sample.lazy Sample.hardware .start).2.settle .wide) ∧
    (Sample.script.run Sample.lazy Sample.hardware .start).1.length = 7 :=
  ⟨(Script.run_atOnce Sample.lazy Sample.hardware Sample.script Sample.given_script
    Sample.patient_script).1, by decide +kernel⟩

end DistributedVector
