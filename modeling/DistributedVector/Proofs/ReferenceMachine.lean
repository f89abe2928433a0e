import DistributedVector.Proofs.Exchange

/-!
# The reference machine keeps the contract

A machine whose launches change data behaves as devices promise, whatever orders to fail it has been
given: its memory is its buffers and its host arrays, it computes with the wide arithmetic, and a
command that fails changes nothing at all.

## Main definitions

* `Machine.memory` — the buffers and arrays of a machine
* `Machine.Executing`, `Machine.Executing.handle` — machines whose launches change data

## Main results

* `Machine.Executing.meets` — these machines keep the contract of devices
* `Machine.Executing.gentle` — and leave their memory alone when a command fails
-/

namespace DistributedVector

namespace Machine

/-- The buffers and host arrays of a machine. -/
def memory (m : Machine) : Memory := ⟨m.buffer?, fun c => m.cells[c]?⟩

/-- Machines whose launches change data. -/
def Executes (m : Machine) : Prop := ∀ (i : Nat) d, m.devices[i]? = some d → d.executes = true

variable {m : Machine}

section

variable {α : Type}

theorem size_overwrite {a values : Array α} {offset : Nat} (h : offset + values.size ≤ a.size) :
    (overwrite a offset values).size = a.size := by
  simp only [overwrite, Array.size_append, Array.size_extract]
  omega

/-- Writing over an array within its size is writing over the list of its entries. -/
theorem toList_overwrite {a values : Array α} {offset : Nat} (h : offset + values.size ≤ a.size) :
    (overwrite a offset values).toList = overlay offset values.toList a.toList := by
  apply List.ext_getElem?
  intro i
  rw [overlay, getElem?_revise]
  simp only [overwrite, placed, Array.getElem?_toList, Array.getElem?_append,
    Array.getElem?_extract, Array.size_append, Array.size_extract]
  -- in front of the values, among them, and behind them
  rcases Nat.lt_or_ge i offset with hi | hi
  · rw [if_pos (by omega), if_pos (by omega), if_pos (by omega), if_neg (by omega)]
    simp
  rcases Nat.lt_or_ge i (offset + values.size) with hj | hj
  · rw [if_pos (by omega), if_neg (by omega), if_pos hi,
      show min offset a.size - 0 = offset by
        omega, Array.getElem?_eq_getElem (show i - offset < values.size by omega),
      Array.getElem?_eq_getElem (show i < a.size by omega)]
    rfl
  · rw [if_neg (by omega), if_pos hi, Array.getElem?_eq_none
      (show values.size ≤ i - offset by omega)]
    rw [show min offset a.size - 0 + values.size = offset + values.size by omega,
      show offset + values.size + (i - (offset + values.size)) = i by omega]
    rcases Nat.lt_or_ge i a.size with hk | hk
    · rw [if_pos (by omega)]
      simp
    · rw [if_neg (by omega), Array.getElem?_eq_none hk]
      rfl

end

theorem permit_frame (m : Machine) (device : DeviceId) (point : FailPoint) :
    (m.permit device point).2.memory = m.memory ∧
      (m.Executes → (m.permit device point).2.Executes) := by
  unfold permit
  split
  · exact ⟨rfl, id⟩
  next d hd =>
    split
    · exact ⟨rfl, id⟩
    split
    · -- an order that lets the command pass is counted, which leaves the other settings
      refine ⟨rfl, fun h i d' hd' => ?_⟩
      rw [Array.getElem?_setIfInBounds] at hd'
      split at hd'
      · split at hd'
        · cases hd'
          exact h device d hd
        · cases hd'
      · exact h i d' hd'
    · exact ⟨rfl, id⟩

theorem buffer?_pos {b : BufferId} {buf : Buffer} (h : m.buffer? b = some buf) :
    0 < b ∧ m.buffers[b - 1]? = some buf := by
  unfold buffer? at h
  split at h
  · cases h
  next hne => exact ⟨Nat.pos_of_ne_zero hne, h⟩

theorem memory_setData {b : Nat} {buf : Buffer} (h : m.buffer? b = some buf)
    (data : Array Scalar) :
    (m.setData b data).memory = m.memory.setBuffer b { buf with data } := by
  obtain ⟨hpos, hbuf⟩ := buffer?_pos h
  refine Memory.ext (funext fun (b' : Nat) => ?_) rfl
  simp only [memory, buffer?, setData, Memory.setBuffer, Array.getElem?_modify]
  rcases eq_or_ne b' b with rfl | hne
  · simp [hbuf, Nat.ne_of_gt hpos]
  · rcases Nat.eq_zero_or_pos b' with rfl | hpos'
    · simp [hne]
    · have hpred : b - 1 ≠ b' - 1 := fun h => hne (Nat.sub_one_cancel hpos' hpos h.symm)
      simp [hne, hpred]

theorem memory_push (m : Machine) (buf : Buffer) :
    { m with buffers := m.buffers.push buf }.memory =
      m.memory.setBuffer (m.buffers.size + 1) buf := by
  refine Memory.ext (funext fun (b : Nat) => ?_) rfl
  simp only [memory, buffer?, Memory.setBuffer, Array.getElem?_push]
  rcases Nat.eq_zero_or_pos b with rfl | hpos
  · simp
  · rcases eq_or_ne b (m.buffers.size + 1) with rfl | hne
    · simp
    · have hpred : b - 1 ≠ m.buffers.size := by omega
      simp [hne, hpred]

theorem buffer?_next (m : Machine) : m.buffer? (m.buffers.size + 1) = none := by
  simp [buffer?]

theorem memory_setCell {c : CellId} {a : Array Scalar} (h : m.cells[c]? = some a)
    (f : Array Scalar → Array Scalar) :
    { m with cells := m.cells.modify c f }.memory = m.memory.setCell c (f a) := by
  refine Memory.ext rfl (funext fun c' => ?_)
  simp only [memory, Memory.setCell, Array.getElem?_modify]
  rcases eq_or_ne c' c with rfl | hne
  · simp [h]
  · rw [if_neg hne.symm, if_neg hne]

theorem memory_pushCell (m : Machine) (a : Array Scalar) :
    { m with cells := m.cells.push a }.memory = m.memory.setCell m.cells.size a := by
  refine Memory.ext rfl (funext fun c => ?_)
  simp only [memory, Memory.setCell, Array.getElem?_push]

theorem range?_of_span {device : DeviceId} {b : Option BufferId} {offset : Int} {count : Nat}
    {id : BufferId} {buf : Buffer} (h : m.memory.Span device b offset count id buf) :
    m.range? b offset count = some (id, buf, offset.toNat) := by
  obtain ⟨rfl, hpresent, -, hlower, hupper⟩ := h
  have hpresent : m.buffer? id = some buf := hpresent
  simp [range?, hpresent, hlower, hupper]

/-- A bound argument has the values that the contract gives it. -/
theorem bound_at {arg : Argument} {i : Nat} {v : Scalar}
    (h : arg.valueAt Arithmetic.wide m.memory i = some v) : (m.bound arg).at i = v := by
  cases arg with
  | buffer b =>
    cases b with
    | none => simp [Argument.valueAt] at h
    | some b =>
      obtain ⟨buf, hbuf, x, hx, rfl⟩ : ∃ buf, m.buffer? b = some buf ∧ ∃ x, buf.data[i]? = some x ∧
          Arithmetic.wide.load buf.type x = v := by
        simpa [Argument.valueAt, memory, Option.bind_eq_some_iff] using h
      simp [bound, hbuf, Bound.at, Array.getD_eq_getD_getElem?, hx]
  | scalar t x =>
    cases t with
    | element t => exact Option.some_inj.mp h
    | foreign t => simp [Argument.valueAt] at h

/-- Running a kernel stores what the kernel computes. -/
theorem memory_execute {mem : Memory} (hmem : m.memory = mem) {device : DeviceId}
    {source : KernelSource} {target : BufferId} {buf : Buffer} {rest : List Argument}
    (h : mem.Launchable device source target buf rest) :
    ∀ r : Except DeviceFault Event, mem.Stored (some target) r
      (fun buf xs => mem.Computes Arithmetic.wide source buf.type buf.data.size rest xs)
      (m.execute source (.scalar (.element .uint64) (.int buf.data.size) ::
        .buffer (some target) :: rest)).memory := by
  subst hmem
  intro r id buf' hid hbuf
  obtain rfl : target = id := Option.some_inj.mp hid
  obtain rfl : buf = buf' := Option.some_inj.mp (h.present.symm.trans hbuf)
  have hpresent : m.buffer? target = some buf := h.present
  let values := results buf.type source.text (rest.map m.bound) buf.data.size
  have hsize : values.size = buf.data.size := by simp [values, results]
  have hover : overwrite buf.data 0 values = values := by
    simp [overwrite, hsize]
  refine ⟨values, hsize, ?_, fun _ _ => ⟨by rw [Array.length_toList, hsize],
    fun i hi args hargs => ?_⟩⟩
  · simp only [execute, hpresent, Int.toNat_natCast]
    rw [memory_setData hpresent, hover]
  · have hbound : (rest.map m.bound).map (·.at i) = args := by
      rw [List.map_map, ← List.forall₂_eq_eq_eq, List.forall₂_map_left_iff]
      exact (mapM_eq_some_iff.mp hargs).imp fun arg v hv => bound_at hv
    rw [← hbound]
    simp [values, results, hi, Arithmetic.compute]

/-- A permission is refused or given; neither changes the memory. -/
theorem permit_cases (m : Machine) (device : DeviceId) (point : FailPoint) :
    (∃ e m', m.permit device point = (.error e, m') ∧ m'.memory = m.memory ∧
      (m.Executes → m'.Executes)) ∨
    ∃ m', m.permit device point = (.ok (), m') ∧ m'.memory = m.memory ∧
      (m.Executes → m'.Executes) := by
  obtain ⟨hmemory, hexecutes⟩ := permit_frame m device point
  rcases hpermit : m.permit device point with ⟨e | u, m'⟩ <;> rw [hpermit] at hmemory hexecutes
  · exact .inl ⟨e, m', rfl, hmemory, hexecutes⟩
  · exact .inr ⟨m', rfl, hmemory, hexecutes⟩

/-- A command is refused, which changes no memory, or carried out. -/
theorem command_cases (m : Machine) (device : DeviceId) (point : FailPoint)
    (act : Machine → Except DeviceFault Event × Machine) :
    (∃ e m', m.command device point act = (.error e, m') ∧ m'.memory = m.memory ∧
      (m.Executes → m'.Executes)) ∨
    ∃ m', m.command device point act = act m' ∧ m'.memory = m.memory ∧
      (m.Executes → m'.Executes) := by
  unfold command
  rcases m.permit_cases device point with ⟨e, m', heq, hframe⟩ | ⟨m', heq, hframe⟩ <;> rw [heq]
  · exact .inl ⟨e, m', rfl, hframe⟩
  · exact .inr ⟨m', rfl, hframe⟩

/-- A command that fails leaves the memory alone, if carrying it out does where that fails. -/
theorem command_gentle {device : DeviceId} {point : FailPoint}
    {act : Machine → Except DeviceFault Event × Machine}
    (hact : ∀ m' e, (act m').1 = .error e → (act m').2.memory = m'.memory)
    (hfault : ∀ e, (m.command device point act).1 ≠ .ok e) :
    (m.command device point act).2.memory = m.memory := by
  rcases command_cases m device point act with ⟨e, m', heq, hmemory, -⟩ | ⟨m', heq, hmemory, -⟩
  · rw [heq]
    exact hmemory
  · rw [heq] at hfault ⊢
    cases hresult : (act m').1 with
    | error e => exact (hact m' e hresult).trans hmemory
    | ok e => exact absurd hresult (hfault e)

theorem execute_devices (m : Machine) (source : KernelSource) (args : List Argument) :
    (m.execute source args).devices = m.devices := by
  unfold execute
  split
  · split <;> rfl
  · rfl

/-- No call changes whether launches change data. -/
theorem handle_executes (c : Call) (h : m.Executes) : (handle c m).2.Executes := by
  -- a permit counts the command, and what the command does is not about devices
  have hcommand : ∀ device point act, (∀ m', (act m').2.devices = m'.devices) →
      (m.command device point act).2.Executes := by
    intro device point act hact
    rcases command_cases m device point act with ⟨e, m', heq, -, hm'⟩ | ⟨m', heq, -, hm'⟩
    · rw [heq]
      exact hm' h
    · rw [heq]
      intro i d hd
      rw [hact] at hd
      exact hm' h i d hd
  cases c with
  | allocate device size type access =>
    rcases m.permit_cases device .alloc with ⟨e, m', heq, -, hframe⟩ | ⟨m', heq, -, hframe⟩ <;>
      simp only [handle, heq] <;> exact hframe h
  | write device b offset shape data =>
    refine hcommand device .write _ fun m' => ?_
    split <;> rfl
  | read device b offset count cell cellOffset =>
    refine hcommand device .read _ fun m' => ?_
    split <;> rfl
  | copy device source target count sourceOffset targetOffset =>
    refine hcommand device .copy _ fun m' => ?_
    split <;> rfl
  | build device source =>
    simp only [handle]
    split <;> exact h
  | launch device source grid workgroup args =>
    refine hcommand device .launch _ fun m' => ?_
    dsimp only
    split
    · exact execute_devices _ _ _
    · rfl
  | wait device e =>
    rcases m.permit_cases device .wait with ⟨e, m', heq, -, hframe⟩ | ⟨m', heq, -, hframe⟩ <;>
      simp only [handle, heq] <;> exact hframe h
  | synchronize device =>
    rcases m.permit_cases device .sync with ⟨e, m', heq, -, hframe⟩ | ⟨m', heq, -, hframe⟩ <;>
      simp only [handle, heq] <;> exact hframe h
  | hostArray | hostContents | clock | report | multiply => exact h

/-- Machines whose launches change data. -/
def Executing := { m : Machine // m.Executes }

namespace Executing

/-- The machine as a handler of calls. -/
def handle : Handler Executing := fun c m =>
  ((Machine.handle c m.1).1, ⟨(Machine.handle c m.1).2, handle_executes c m.2⟩)

/-- The buffers and host arrays of a machine. -/
def memory (m : Executing) : Memory := m.1.memory

/-- These machines keep the contract of devices, for any choice of workgroups. -/
theorem meets (suits : DeviceId → KernelSource → Int → Prop) :
    handle.Meets memory (deviceContract Arithmetic.wide suits) := by
  rintro c ⟨m, hm⟩ hc
  change Memory.Permits suits c m.memory at hc
  change Memory.Effect Arithmetic.wide c m.memory (Machine.handle c m).1
    (Machine.handle c m).2.memory
  cases c with
  | allocate device size type access =>
    rcases m.permit_cases device .alloc with ⟨e, m', heq, hmemory, -⟩ | ⟨m', heq, hmemory, -⟩ <;>
      simp only [Machine.handle, heq, ← hmemory]
    · exact rfl
    · exact ⟨buffer?_next m', memory_push m' _⟩
  | write device b offset shape data =>
    obtain ⟨rfl, id, buf, hspan⟩ := hc
    intro id' buf' hid hbuf
    obtain rfl : id = id' := Option.some_inj.mp (hspan.named.symm.trans hid)
    obtain rfl : buf = buf' := Option.some_inj.mp (hspan.present.symm.trans hbuf)
    simp only [Machine.handle]
    rcases command_cases m device .write _ with ⟨e, m', heq, hmemory, -⟩ | ⟨m', heq, hmemory, -⟩ <;>
      rw [heq, ← hmemory] <;> rw [← hmemory] at hspan
    · exact ⟨buf.data, rfl, (m'.memory.setBuffer_self hspan.present).symm, nofun⟩
    · rw [range?_of_span hspan]
      exact ⟨_, size_overwrite hspan.room, memory_setData hspan.present _,
        fun _ _ => toList_overwrite hspan.room⟩
  | read device b offset count cell cellOffset =>
    obtain ⟨⟨id, buf, hspan⟩, a, hcell, hroom⟩ := hc
    intro id' buf' a' hid hbuf ha
    obtain rfl : id = id' := Option.some_inj.mp (hspan.named.symm.trans hid)
    obtain rfl : buf = buf' := Option.some_inj.mp (hspan.present.symm.trans hbuf)
    obtain rfl : a = a' := Option.some_inj.mp (hcell.symm.trans ha)
    simp only [Machine.handle]
    rcases command_cases m device .read _ with ⟨e, m', heq, hmemory, -⟩ | ⟨m', heq, hmemory, -⟩ <;>
      rw [heq, ← hmemory] <;> rw [← hmemory] at hspan hcell
    · exact ⟨a, rfl, (m'.memory.setCell_self hcell).symm, nofun⟩
    · rw [range?_of_span hspan]
      have hpart : (buf.data.extract offset.toNat (offset.toNat + count)).size = count := by
        have := hspan.room
        rw [Array.size_extract]
        omega
      refine ⟨_, size_overwrite (by rwa [hpart]), memory_setCell hcell _, fun _ _ => ?_⟩
      rw [toList_overwrite (by rwa [hpart]), toList_part]
  | copy device source target count sourceOffset targetOffset =>
    obtain ⟨id, buf, id', buf', hsource, htarget, -⟩ := hc
    intro id₁ buf₁ hid hbuf id₂ buf₂ hid' hbuf'
    obtain rfl : id = id₁ := Option.some_inj.mp (hsource.named.symm.trans hid)
    obtain rfl : buf = buf₁ := Option.some_inj.mp (hsource.present.symm.trans hbuf)
    obtain rfl : id' = id₂ := Option.some_inj.mp (htarget.named.symm.trans hid')
    obtain rfl : buf' = buf₂ := Option.some_inj.mp (htarget.present.symm.trans hbuf')
    simp only [Machine.handle]
    rcases command_cases m device .copy _ with ⟨e, m', heq, hmemory, -⟩ | ⟨m', heq, hmemory, -⟩ <;>
      rw [heq, ← hmemory] <;> rw [← hmemory] at hsource htarget
    · exact ⟨buf'.data, rfl, (m'.memory.setBuffer_self htarget.present).symm, nofun⟩
    · rw [range?_of_span hsource, range?_of_span htarget]
      have hpart : (buf.data.extract sourceOffset.toNat (sourceOffset.toNat + count)).size =
          count := by
        have := hsource.room
        rw [Array.size_extract]
        omega
      refine ⟨_, size_overwrite (by rw [hpart]; exact htarget.room),
        memory_setData htarget.present _, fun _ _ => ?_⟩
      rw [toList_overwrite (by rw [hpart]; exact htarget.room), toList_part]
  | build device source =>
    simp only [Machine.handle]
    split <;> rfl
  | launch device source grid workgroup args =>
    obtain ⟨-, target, buf, rest, rfl, hrun⟩ := hc
    simp only [Machine.handle]
    rcases command_cases m device .launch _ with
      ⟨e, m', heq, hmemory, -⟩ | ⟨m', heq, hmemory, hexecutes⟩ <;>
      rw [heq, ← hmemory] <;> rw [← hmemory] at hrun
    · intro id buf' hid hbuf
      exact ⟨buf'.data, rfl, (m'.memory.setBuffer_self hbuf).symm, nofun⟩
    · have hruns : (m'.devices[device]?.map (·.executes)).getD true = true := by
        cases hd : m'.devices[device]? with
        | none => rfl
        | some d => exact hexecutes hm device d hd
      simp only [nextEvent, note, hruns, if_true]
      -- the event, the clock and the trace are no memory
      refine memory_execute ?_ hrun _
      rfl
  | wait device e =>
    rcases m.permit_cases device .wait with ⟨e, m', heq, hmemory, -⟩ | ⟨m', heq, hmemory, -⟩ <;>
      simp only [Machine.handle, heq] <;> exact hmemory
  | synchronize device =>
    rcases m.permit_cases device .sync with ⟨e, m', heq, hmemory, -⟩ | ⟨m', heq, hmemory, -⟩ <;>
      simp only [Machine.handle, heq] <;> exact hmemory
  | hostArray count type =>
    exact ⟨Array.getElem?_eq_none (Nat.le_refl _), _, Array.size_replicate, memory_pushCell m _⟩
  | hostContents cell offset count =>
    refine ⟨rfl, fun a ha => ?_⟩
    have ha : m.cells[cell]? = some a := ha
    simp [Machine.handle, ha]
  | clock => rfl
  | report => rfl
  | multiply => rfl

/-- These machines leave their memory alone when a command fails. -/
theorem gentle : handle.Gentle memory := by
  rintro c ⟨m, hm⟩ hfault
  change Exchange.fault? ⟨c, (Machine.handle c m).1⟩ ≠ none at hfault
  change (Machine.handle c m).2.memory = m.memory
  cases c with
  | allocate device size type access =>
    rcases m.permit_cases device .alloc with ⟨e, m', heq, hmemory, -⟩ | ⟨m', heq, hmemory, -⟩ <;>
      simp only [Machine.handle, heq] at hfault ⊢
    · exact hmemory
    · exact absurd rfl hfault
  | write device b offset shape data =>
    refine command_gentle (fun m' e he => ?_) fun e he => hfault (by rw [Machine.handle, he]; rfl)
    dsimp only at he ⊢
    split at he
    · rfl
    · rfl
    · cases he
  | read device b offset count cell cellOffset =>
    refine command_gentle (fun m' e he => ?_) fun e he => hfault (by rw [Machine.handle, he]; rfl)
    dsimp only at he ⊢
    split at he
    · rfl
    · cases he
  | copy device source target count sourceOffset targetOffset =>
    refine command_gentle (fun m' e he => ?_) fun e he => hfault (by rw [Machine.handle, he]; rfl)
    dsimp only at he ⊢
    split at he
    · cases he
    · rfl
  | build device source =>
    simp only [Machine.handle]
    split <;> rfl
  | launch device source grid workgroup args =>
    -- a launch that is permitted is carried out
    refine command_gentle (fun m' e he => ?_) fun e he => hfault (by rw [Machine.handle, he]; rfl)
    cases he
  | wait device e =>
    rcases m.permit_cases device .wait with ⟨e, m', heq, hmemory, -⟩ | ⟨m', heq, hmemory, -⟩ <;>
      simp only [Machine.handle, heq] <;> exact hmemory
  | synchronize device =>
    rcases m.permit_cases device .sync with ⟨e, m', heq, hmemory, -⟩ | ⟨m', heq, hmemory, -⟩ <;>
      simp only [Machine.handle, heq] <;> exact hmemory
  | hostArray | hostContents | clock | report | multiply => exact absurd rfl hfault

end Executing

end Machine

end DistributedVector
