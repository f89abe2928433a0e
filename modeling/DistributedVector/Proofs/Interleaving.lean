import DistributedVector.Proofs.Queueing

/-!
# Interleaving

Commands of different devices do not get into each other's way: each command names buffers of its
own device only, and reads go to different places of host arrays. So it does not matter in which
order devices go on: the memory that they come to when all pending commands have been carried out is
the same.

What a command does depends on the buffers that it names, and changes one buffer or a range of one
host array. Two commands that share neither commute, and so does a command with whatever the host
does elsewhere.

## Main definitions

* `Memory.Change`, `Call.change` — what a command does to a memory
* `Call.Names`, `Call.Apart` — the buffers that a command names, and commands that share nothing
* `Memory.carry`, `Queues.settled` — the memory after pending commands
* `Queues.Separate` — pending commands of different devices share nothing

## Main results

* `Memory.perform_comm` — the order of commands that share nothing does not matter
* `Queues.settled_advance` — the order in which devices go on does not matter
-/

namespace DistributedVector

variable {V : Type} {A : Arithmetic V} {m m' : Memory} {c c' : Call}

/-- What a command does: it gives a buffer other elements, or writes over a range of a host
array. -/
inductive Memory.Change
  | buffer (b : Option BufferId) (f : Buffer → List Scalar)
  | cell (k : CellId) (offset : Nat) (values : List Scalar)
  | nothing

/-- What a command does to a memory. -/
def Call.change (A : Arithmetic V) : Call → Memory → Memory.Change
  | .write _ b offset _ data => fun _ =>
    .buffer b fun buf => overlay offset.toNat data.toList buf.data.toList
  | .read _ b offset count cell cellOffset => fun m => .cell cell cellOffset (m.part b offset count)
  | .copy _ source target count sourceOffset targetOffset => fun m =>
    .buffer target fun buf =>
      overlay targetOffset.toNat (m.part source sourceOffset count) buf.data.toList
  | .launch _ source _ _ (.scalar _ (.int n) :: .buffer target :: rest) => fun m =>
    .buffer target fun buf => overlay 0 (m.computed A source buf.type n.toNat rest) buf.data.toList
  | _ => fun _ => .nothing

/-- The memory with a change. -/
def Memory.apply : Memory.Change → Memory → Memory
  | .buffer b f, m => m.revise b f
  | .cell k offset values, m => m.fill k offset values
  | .nothing, m => m

theorem Memory.perform_eq (c : Call) (m : Memory) : m.perform A c = m.apply (c.change A m) := by
  unfold perform
  split
  case h_5 hwrite hread hcopy hlaunch =>
    unfold Call.change
    split
    · exact (hwrite _ _ _ _ _ rfl).elim
    · exact (hread _ _ _ _ _ _ rfl).elim
    · exact (hcopy _ _ _ _ _ _ rfl).elim
    · exact (hlaunch _ _ _ _ _ _ _ _ rfl).elim
    · rfl
  all_goals rfl

/-- Changes of different buffers, or of different places of host arrays. -/
def Memory.Change.Apart : Memory.Change → Memory.Change → Prop
  | .buffer b _, .buffer b' _ => ∀ id, b = some id → b' ≠ some id
  | .cell k offset values, .cell k' offset' values' => k = k' → ∀ i, offset ≤ i →
    i < offset + values.length → ¬ (offset' ≤ i ∧ i < offset' + values'.length)
  | _, _ => True

theorem Memory.apply_comm {x y : Memory.Change} (h : x.Apart y) (m : Memory) :
    (m.apply x).apply y = (m.apply y).apply x := by
  cases x with
  | nothing => cases y <;> rfl
  | buffer b f =>
    cases y with
    | buffer b' f' =>
      -- a buffer that both are about is the one that they commute on
      refine Memory.ext (funext fun id => ?_) rfl
      simp only [apply, revise, Option.map_map]
      refine congrArg (Option.map · _) (funext fun buf => ?_)
      simp only [Function.comp]
      by_cases hb : b = some id
      · simp [hb, h id hb]
      · simp [hb]
    | _ => rfl
  | cell k offset values =>
    cases y with
    | cell k' offset' values' =>
      -- in one array they fill places apart from each other
      refine Memory.ext rfl (funext fun k'' => ?_)
      simp only [apply, fill, Option.map_map]
      refine congrArg (Option.map · _) (funext fun a => ?_)
      simp only [Function.comp]
      by_cases hk : k'' = k <;> by_cases hk' : k'' = k'
      · simp only [if_pos hk, if_pos hk']
        rw [overlay_comm (h (hk.symm.trans hk'))]
      · simp only [if_pos hk, if_neg hk']
      · simp only [if_neg hk, if_pos hk']
      · simp only [if_neg hk, if_neg hk']
    | _ => rfl

/-! ## Commands that share nothing -/

/-- A command names a buffer. -/
def Call.Names (b : BufferId) : Call → Prop
  | .write _ b' _ _ _ | .read _ b' _ _ _ _ => b' = some b
  | .copy _ source target _ _ _ => source = some b ∨ target = some b
  | .launch _ _ _ _ args => .buffer (some b) ∈ args
  | _ => False

/-- A command names a host array to store into. -/
def Call.Into (k : CellId) : Call → Prop
  | .read _ _ _ _ cell _ => cell = k
  | _ => False

theorem Call.Holds.names {b : BufferId} (h : c.Holds b) : c.Names b := by
  cases c with
  | write | read => exact h
  | copy => exact .inr h
  | launch => exact List.mem_of_getElem? h
  | _ => exact h

theorem Call.Fills.into {k : CellId} {i : Nat} (h : c.Fills k i) : c.Into k := by
  cases c with
  | read => exact h.1
  | _ => exact h

/-- Commands that name different buffers, and fill different places of host arrays. -/
structure Call.Apart (c c' : Call) : Prop where
  buffers : ∀ b, c.Names b → ¬ c'.Names b
  places : ∀ k i, c.Fills k i → ¬ c'.Fills k i

theorem Call.Apart.symm (h : c.Apart c') : c'.Apart c :=
  ⟨fun b h₁ h₂ => h.buffers b h₂ h₁, fun k i h₁ h₂ => h.places k i h₂ h₁⟩

theorem Call.names_of_change {b : BufferId} {f : Buffer → List Scalar}
    (h : c.change A m = .buffer (some b) f) : c.Names b := by
  unfold change at h
  split at h <;> cases h
  · rfl
  · exact .inr rfl
  · simp [Names]

theorem Call.fills_of_change {k : CellId} {offset : Nat} {values : List Scalar}
    (h : c.change A m = .cell k offset values) : c.Into k ∧
      ∀ i, offset ≤ i → i < offset + values.length → c.Fills k i := by
  unfold change at h
  split at h <;> cases h
  exact ⟨rfl, fun i hlower hupper => ⟨rfl, hlower, Nat.lt_of_lt_of_le hupper
    (Nat.add_le_add_left (List.length_take_le _ _) _)⟩⟩

/-- A kernel looks at the buffers that it is given only. -/
theorem Memory.computed_congr {source : KernelSource} {type : ElementType} {n : Nat}
    {args : List Argument} (h : ∀ b, .buffer (some b) ∈ args → m.buffer b = m'.buffer b) :
    m.computed A source type n args = m'.computed A source type n args := by
  have hvalues : ∀ i, args.mapM (Argument.valueAt A m i) = args.mapM (Argument.valueAt A m' i) :=
    fun i => mapM_option_congr fun arg harg => by
      cases arg with
      | buffer b =>
        cases b with
        | none => rfl
        | some b => simp [Argument.valueAt, h b harg]
      | scalar t => cases t <;> rfl
  simp only [computed, hvalues]

/-- A command looks at the buffers that it names only. -/
theorem Call.change_congr (h : ∀ b, c.Names b → m.buffer b = m'.buffer b) :
    c.change A m = c.change A m' := by
  have hpart : ∀ {b : Option BufferId} (offset : Int) (count : Nat),
      (∀ id, b = some id → m.buffer id = m'.buffer id) →
      m.part b offset count = m'.part b offset count := by
    intro b offset count hb
    cases b with
    | none => rfl
    | some id => simp only [Memory.part, Option.bind_some, hb id rfl]
  unfold change
  split
  · rfl
  · rw [hpart _ _ h]
  · rw [hpart _ _ fun b hb => h b (.inl hb)]
  · refine congrArg (Memory.Change.buffer _) (funext fun buf => congrArg (overlay 0 · _) ?_)
    exact Memory.computed_congr fun b hb => h b (.tail _ (.tail _ hb))
  · rfl

theorem Call.Apart.change (h : c.Apart c') : (c.change A m).Apart (c'.change A m') := by
  cases hx : c.change A m with
  | nothing => exact trivial
  | buffer b f =>
    cases hy : c'.change A m' with
    | buffer b' f' =>
      rintro id rfl rfl
      exact h.buffers id (names_of_change hx) (names_of_change hy)
    | _ => exact trivial
  | cell k offset values =>
    cases hy : c'.change A m' with
    | cell k' offset' values' =>
      rintro rfl i hlower hupper ⟨hlower', hupper'⟩
      exact h.places k i ((fills_of_change hx).2 i hlower hupper)
        ((fills_of_change hy).2 i hlower' hupper')
    | _ => exact trivial

namespace Memory

/-- Behind a command that shares nothing with it, a command does what it does before. -/
theorem change_perform (h : c.Apart c') (m : Memory) :
    c'.change A (m.perform A c) = c'.change A m :=
  Call.change_congr fun b hb => buffer_perform (fun hholds => h.buffers b hholds.names hb) m

/-- The order of commands that share nothing does not matter. -/
theorem perform_comm (h : c.Apart c') (m : Memory) :
    (m.perform A c).perform A c' = (m.perform A c').perform A c := by
  rw [perform_eq c', perform_eq c (m.perform A c'), change_perform h, change_perform h.symm,
    perform_eq, perform_eq, apply_comm h.change]

/-- A command does not look at what is new. -/
theorem perform_setBuffer {b : BufferId} (h : ¬ c.Names b) (buf : Buffer) (m : Memory) :
    (m.setBuffer b buf).perform A c = (m.perform A c).setBuffer b buf := by
  have hchange : c.change A (m.setBuffer b buf) = c.change A m :=
    Call.change_congr fun b' hb' => setBuffer_buffer_of_ne m buf fun heq => h (heq ▸ hb')
  rw [perform_eq, perform_eq, hchange]
  cases hx : c.change A m with
  | buffer b' f =>
    refine Memory.ext (funext fun id => ?_) rfl
    simp only [apply, revise, setBuffer]
    by_cases hid : id = b
    · have hne : b' ≠ some id := by
        rintro rfl
        exact h (hid ▸ Call.names_of_change hx)
      simp [hid, hid ▸ hne]
    · simp only [if_neg hid]
  | _ => rfl

theorem perform_setCell {k : CellId} (h : ¬ c.Into k) (a : Array Scalar) (m : Memory) :
    (m.setCell k a).perform A c = (m.perform A c).setCell k a := by
  have hchange : c.change A (m.setCell k a) = c.change A m := Call.change_congr fun _ _ => rfl
  rw [perform_eq, perform_eq, hchange]
  cases hx : c.change A m with
  | cell k' offset values =>
    refine Memory.ext rfl (funext fun k'' => ?_)
    simp only [apply, fill, setCell]
    by_cases hk : k'' = k
    · have hne : k'' ≠ k' := by
        rintro rfl
        exact h (hk ▸ (Call.fills_of_change hx).1)
      simp [hk, hk ▸ hne]
    · simp only [if_neg hk]
  | _ => rfl

/-- A command does not look at host arrays. -/
theorem perform_fill {k : CellId} {offset : Nat} {values : List Scalar}
    (h : ∀ i, offset ≤ i → i < offset + values.length → ¬ c.Fills k i) (m : Memory) :
    (m.fill k offset values).perform A c = (m.perform A c).fill k offset values := by
  have hchange : c.change A (m.fill k offset values) = c.change A m :=
    Call.change_congr fun _ _ => rfl
  rw [perform_eq, perform_eq, hchange]
  refine apply_comm (x := .cell k offset values) ?_ m
  cases hx : c.change A m with
  | cell k' offset' values' =>
    rintro rfl i hlower hupper ⟨hlower', hupper'⟩
    exact h i hlower hupper ((Call.fills_of_change hx).2 i hlower' hupper')
  | _ => exact trivial

/-- A command leaves host arrays as long as they are. -/
theorem size_cell_perform (c : Call) (m : Memory) (k : CellId) :
    ((m.perform A c).cell k).map (·.size) = (m.cell k).map (·.size) := by
  rw [perform_eq]
  cases c.change A m with
  | cell k' offset values =>
    simp only [apply, fill, Option.map_map]
    refine congrArg (Option.map · _) (funext fun a => ?_)
    simp only [Function.comp]
    split
    · simp
    · rfl
  | _ => rfl

/-- A place of a host array that a command does not fill stays as it is. -/
theorem place_perform {k : CellId} {i : Nat} (h : ¬ c.Fills k i) (m : Memory) :
    (((m.perform A c).cell k).getD #[])[i]? = ((m.cell k).getD #[])[i]? := by
  rw [perform_eq]
  cases hx : c.change A m with
  | cell k' offset values =>
    simp only [apply, fill]
    cases m.cell k with
    | none => rfl
    | some a =>
      simp only [Option.map_some, Option.getD_some]
      split
      next hk =>
        subst hk
        have hnone : placed offset values i = none := placed_outside fun hin =>
          h ((Call.fills_of_change hx).2 i hin.1 hin.2)
        simp [overlay, hnone]
      · rfl
  | _ => rfl

/-- The memory after pending commands. -/
def carry (A : Arithmetic V) (P : List Pending) (m : Memory) : Memory :=
  P.foldl (fun m p => m.perform A p.command) m

variable {P : List Pending}

@[simp] theorem carry_nil : m.carry A [] = m := rfl

@[simp] theorem carry_cons {p : Pending} :
    m.carry A (p :: P) = (m.perform A p.command).carry A P := rfl

@[simp] theorem carry_append {P' : List Pending} :
    m.carry A (P ++ P') = (m.carry A P).carry A P' := List.foldl_append

/-- What may be done before each of the commands may be done before all of them. -/
theorem carry_comm {f : Memory → Memory}
    (h : ∀ p ∈ P, ∀ m, (f m).perform A p.command = f (m.perform A p.command)) (m : Memory) :
    (f m).carry A P = f (m.carry A P) := by
  induction P generalizing m with
  | nil => rfl
  | cons p rest ih =>
    rw [carry_cons, h p List.mem_cons_self, ih fun p' hp' => h p' (.tail _ hp')]
    rfl

/-- What each of the commands leaves, all of them leave. -/
theorem carry_frame {α : Type} {f : Memory → α}
    (h : ∀ p ∈ P, ∀ m, f (m.perform A p.command) = f m) (m : Memory) : f (m.carry A P) = f m := by
  induction P generalizing m with
  | nil => rfl
  | cons p rest ih =>
    rw [carry_cons, ih fun p' hp' => h p' (.tail _ hp'), h p List.mem_cons_self]

end Memory

/-! ## Queues that share nothing -/

/-- A command names only buffers of a device, and stores only into host arrays that are there. -/
structure Call.On (d : DeviceId) (m : Memory) (c : Call) : Prop where
  own : ∀ b, c.Names b → ∃ o, m.allocated b = some o ∧ o.device = d
  there : ∀ k, c.Into k → m.cell k ≠ none

/-- Buffers and host arrays stay what they are; there may be new ones. -/
structure Memory.Extends (m m' : Memory) : Prop where
  buffer : m.allocated.Grows m'.allocated
  cell : ∀ k, m.cell k ≠ none → m'.cell k ≠ none

theorem Call.On.mono {d : DeviceId} (h : c.On d m) (hm : m.Extends m') : c.On d m' :=
  ⟨fun b hb => let ⟨o, ho, hd⟩ := h.own b hb; ⟨o, hm.buffer b o ho, hd⟩,
    fun k hk => hm.cell k (h.there k hk)⟩

namespace Memory.Extends

theorem refl (m : Memory) : m.Extends m := ⟨.refl _, fun _ h => h⟩

theorem trans {m'' : Memory} (h : m.Extends m') (h' : m'.Extends m'') : m.Extends m'' :=
  ⟨h.buffer.trans h'.buffer, fun k hk => h'.cell k (h.cell k hk)⟩

theorem of_eq (hbuffer : m'.allocated = m.allocated)
    (hcell : ∀ k, (m'.cell k).map (·.size) = (m.cell k).map (·.size)) : m.Extends m' :=
  ⟨hbuffer ▸ .refl _, fun k hk hnone => hk (by simpa [hnone] using (hcell k).symm)⟩

theorem perform (c : Call) (m : Memory) : m.Extends (m.perform A c) :=
  .of_eq (allocated_perform c m) (size_cell_perform c m)

end Memory.Extends

namespace Queues

variable {q q' : Queues} {d : DeviceId}

/-- The memory after all pending commands. -/
def settled (A : Arithmetic V) (q : Queues) : Memory := q.memory.carry A q.pending

/-- Commands are about buffers of their devices, and no two devices store into the same place of a
host array. -/
structure Separate (q : Queues) : Prop where
  each : ∀ p ∈ q.pending, p.command.On p.device q.memory
  places : ∀ p ∈ q.pending, ∀ p' ∈ q.pending, p.device ≠ p'.device →
    ∀ k i, p.command.Fills k i → ¬ p'.command.Fills k i

theorem separate_start : Separate .start :=
  ⟨fun _ hp => absurd hp List.not_mem_nil, fun _ hp => absurd hp List.not_mem_nil⟩

/-- Commands of different devices share nothing. -/
theorem Separate.apart (h : q.Separate) {p p' : Pending} (hp : p ∈ q.pending) (hp' : p' ∈ q.pending)
    (hne : p.device ≠ p'.device) : p.command.Apart p'.command := by
  refine ⟨fun b hb hb' => hne ?_, h.places p hp p' hp' hne⟩
  obtain ⟨o, ho, hd⟩ := (h.each p hp).own b hb
  obtain ⟨o', ho', hd'⟩ := (h.each p' hp').own b hb'
  rw [← hd, ← hd', Option.some_inj.mp (ho.symm.trans ho')]

theorem Separate.mono (h : q.Separate) (hP : q'.pending ⊆ q.pending)
    (hm : q.memory.Extends q'.memory) : q'.Separate :=
  ⟨fun p hp => (h.each p (hP hp)).mono hm, fun p hp p' hp' => h.places p (hP hp) p' (hP hp')⟩

/-- A device that goes on carries out what is pending. -/
theorem settled_turn (h : q.Separate) (d : DeviceId) : (q.turn A d).settled A = q.settled A := by
  simp only [settled, turn]
  cases hfind : q.pending.find? (·.device = d) with
  | none => rw [List.eraseP_of_forall_not (by simpa using hfind)]; rfl
  | some p =>
    obtain ⟨hp, before, after, hpending, hbefore⟩ := List.find?_eq_some_iff_append.mp hfind
    have hp : p.device = d := by simpa using hp
    -- the commands in front of it are those of other devices
    have hcomm : ∀ p' ∈ before, ∀ m : Memory, (m.perform A p.command).perform A p'.command =
        (m.perform A p'.command).perform A p.command := by
      intro p' hp' m
      refine Memory.perform_comm (h.apart ?_ ?_ ?_) m
      · simp [hpending]
      · simp [hpending, hp']
      · rintro hd
        simpa [← hd, hp] using hbefore p' hp'
    rw [hpending, List.eraseP_append_right _ (by simpa using hbefore)]
    simp [hp, Memory.carry_comm (f := fun m => m.perform A p.command) hcomm]

theorem extends_turn (q : Queues) (d : DeviceId) : q.memory.Extends (q.turn A d).memory := by
  simp only [turn]
  cases q.pending.find? (·.device = d) with
  | none => exact .refl _
  | some p => exact .perform p.command q.memory

theorem extends_advance (q : Queues) (ds : List DeviceId) :
    q.memory.Extends (q.advance A ds).memory := by
  induction ds generalizing q with
  | nil => exact .refl _
  | cons d rest ih => exact (q.extends_turn d).trans (ih (q.turn A d))

/-- The order in which devices go on does not matter. -/
theorem settled_advance (h : q.Separate) (ds : List DeviceId) :
    (q.advance A ds).settled A = q.settled A ∧ (q.advance A ds).Separate := by
  induction ds generalizing q with
  | nil => exact ⟨rfl, h⟩
  | cons d rest ih =>
    obtain ⟨hsettled, hrest⟩ :=
      ih (h.mono (fun p hp => List.mem_of_mem_eraseP hp) (q.extends_turn (A := A) d))
    exact ⟨hsettled.trans (settled_turn h d), hrest⟩

end Queues

end DistributedVector
