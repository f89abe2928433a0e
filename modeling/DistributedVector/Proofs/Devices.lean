import DistributedVector.Proofs.Ensures
import DistributedVector.Proofs.Memory

/-!
# What devices promise

The contract of devices. A command names buffers, and may be given if these are there, belong to the
device and hold the ranges that it works on; a launch moreover has to bind to each parameter of the
kernel something of its kind and type. A transfer or a copy then moves exactly the elements that it
names, an allocation gives a new buffer of zeros, and a launch stores at each index what the text of
the kernel computes there. A command that fails may leave anything in the buffer or the array that
it writes to, and changes nothing else.

Beyond this, a launch may be restricted to workgroups that suit device and kernel.

## Main definitions

* `Argument.valueAt` — the value that a kernel finds at an index of an argument
* `Memory.Permits`, `Memory.Effect`, `deviceContract` — the contract

## Main results

* `ensures_allocate`, `ensures_write`, `ensures_read`, `ensures_copy`, `ensures_launch` — the rules
  of the device commands
-/

namespace DistributedVector

variable {V : Type}

/-- The value that a kernel finds at an index of an argument, if there is one. -/
def Argument.valueAt (A : Arithmetic V) (m : Memory) (i : Nat) : Argument → Option V
  | buffer b => do
    let buf ← b.bind m.buffer
    return A.load buf.type (← buf.data[i]?)
  | scalar (.element t) x => some (A.load t x)
  | scalar (.foreign _) _ => none

namespace Memory

/-- An argument is what a parameter asks for in a launch over `n` elements: a buffer of the device
with as many elements of the parameter's type, or a scalar of that type. -/
def Fits (m : Memory) (device : DeviceId) (n : Nat) (p : Parameter) : Argument → Prop
  | .buffer b => p.kind = .vector ∧ ∃ id buf, b = some id ∧ m.buffer id = some buf ∧
      buf.device = device ∧ p.type = .element buf.type ∧ buf.data.size = n
  | .scalar t _ => p.kind = .scalar ∧ p.type = t

/-- The launch of a kernel over a whole buffer, with arguments for all parameters. -/
structure Launchable (m : Memory) (device : DeviceId) (source : KernelSource) (target : BufferId)
    (buf : Buffer) (rest : List Argument) : Prop where
  present : m.buffer target = some buf
  owned : buf.device = device
  writable : buf.access ≠ .readOnly
  result : source.result = .element buf.type
  arguments : List.Forall₂ (m.Fits device buf.data.size) source.parameters rest

/-- The calls that may be made; `suits` tells which workgroups a device may run a kernel with. -/
def Permits (suits : DeviceId → KernelSource → Int → Prop) : Call → Memory → Prop
  | .write device b offset shape data, m =>
    shape = [data.size] ∧ ∃ id buf, m.Span device b offset data.size id buf
  | .read device b offset count cell cellOffset, m =>
    (∃ id buf, m.Span device b offset count id buf) ∧
      ∃ a, m.cell cell = some a ∧ cellOffset + count ≤ a.size
  | .copy device source target count sourceOffset targetOffset, m =>
    ∃ id buf id' buf', m.Span device source sourceOffset count id buf ∧
      m.Span device target targetOffset count id' buf' ∧ id ≠ id'
  | .launch device source _ workgroup args, m =>
    suits device source workgroup ∧ ∃ target buf rest,
      args = .scalar (.element .uint64) (.int buf.data.size) :: .buffer (some target) :: rest ∧
      m.Launchable device source target buf rest
  | .hostContents cell offset count, m => ∃ a, m.cell cell = some a ∧ offset + count ≤ a.size
  | _, _ => True

/-- A command has stored into a buffer: what it is for, or, after a failure, anything. -/
def Stored {α : Type} (m : Memory) (target : Option BufferId) (r : Except DeviceFault α)
    (intended : Buffer → List Scalar → Prop) (m' : Memory) : Prop :=
  ∀ id buf, target = some id → m.buffer id = some buf → ∃ data, data.size = buf.data.size ∧
    m' = m.setBuffer id { buf with data } ∧ ∀ a, r = .ok a → intended buf data.toList

/-- The values that the text of a kernel computes for the first `n` indices, as its arguments
are. -/
structure Computes (A : Arithmetic V) (m : Memory) (source : KernelSource)
    (type : ElementType) (n : Nat) (rest : List Argument) (values : List Scalar) : Prop where
  length : values.length = n
  value : ∀ i < n, ∀ args, rest.mapM (Argument.valueAt A m i) = some args →
    values[i]? = some (A.store type (A.compute source.text args))

/-- What a call that may be made can reply and leave behind. -/
def Effect (A : Arithmetic V) : (c : Call) → Memory → c.Reply → Memory → Prop
  | .allocate device size type access, m, .ok b, m' =>
    m.buffer b = none ∧ m' = m.setBuffer b ⟨device, type, access, Array.replicate size type.zero⟩
  | .write _ b offset _ data, m, r, m' =>
    m.Stored b r (fun buf xs => xs = overlay offset.toNat data.toList buf.data.toList) m'
  | .read _ b offset count cell cellOffset, m, r, m' =>
    ∀ id buf a, b = some id → m.buffer id = some buf → m.cell cell = some a →
      ∃ a', a'.size = a.size ∧ m' = m.setCell cell a' ∧ ∀ e, r = .ok e → a'.toList =
        overlay cellOffset ((buf.data.toList.drop offset.toNat).take count) a.toList
  | .copy _ source target count sourceOffset targetOffset, m, r, m' =>
    ∀ id buf, source = some id → m.buffer id = some buf →
      m.Stored target r (fun buf' xs => xs = overlay targetOffset.toNat
        ((buf.data.toList.drop sourceOffset.toNat).take count) buf'.data.toList) m'
  | .launch _ source _ _ (_ :: .buffer target :: rest), m, r, m' =>
    m.Stored target r (fun buf xs => m.Computes A source buf.type buf.data.size rest xs) m'
  | .hostArray count _, m, c, m' => m.cell c = none ∧ ∃ a, a.size = count ∧ m' = m.setCell c a
  | .hostContents cell offset count, m, values, m' =>
    m' = m ∧ ∀ a, m.cell cell = some a → values = a.extract offset (offset + count)
  | _, m, _, m' => m' = m

end Memory

/-- The contract of devices that compute with the given arithmetic. -/
def deviceContract (A : Arithmetic V) (suits : DeviceId → KernelSource → Int → Prop) :
    Contract Memory where
  allows := Memory.Permits suits
  effect := Memory.Effect A

section Rules

variable {A : Arithmetic V} {suits : DeviceId → KernelSource → Int → Prop} {τ : Type} {s : τ}
  {m : Memory} {bad : Fault → τ → Memory → Prop}

theorem ensures_allocate {device : DeviceId} {size : Nat} {type : ElementType} {access : Access}
    {good : BufferId → τ → Memory → Prop}
    (hgood : ∀ b, m.buffer b = none →
      good b s (m.setBuffer b ⟨device, type, access, Array.replicate size type.zero⟩))
    (hbad : ∀ e, bad (.device e) s m) :
    (issue (Program.ask (.allocate device size type access)) : Task τ BufferId).Ensures
      (deviceContract A suits) good bad s m := by
  rw [ensures_issue, Program.ensures_ask]
  refine ⟨trivial, fun r m' h => ⟨?_, ?_⟩⟩
  · rintro b rfl
    obtain ⟨hnew, rfl⟩ := h
    exact hgood b hnew
  · rintro e rfl
    obtain rfl : m' = m := h
    exact hbad e

theorem ensures_write {device : DeviceId} {b : Option BufferId} {offset : Int}
    {data : Array Scalar} {id : BufferId} {buf : Buffer} {good : Event → τ → Memory → Prop}
    (hspan : m.Span device b offset data.size id buf)
    (hgood : ∀ e values, values.size = buf.data.size →
      values.toList = overlay offset.toNat data.toList buf.data.toList →
      good e s (m.setBuffer id { buf with data := values }))
    (hbad : ∀ e values, values.size = buf.data.size →
      bad (.device e) s (m.setBuffer id { buf with data := values })) :
    (issue (Program.ask (.write device b offset [data.size] data)) : Task τ Event).Ensures
      (deviceContract A suits) good bad s m := by
  rw [ensures_issue, Program.ensures_ask]
  refine ⟨⟨rfl, id, buf, hspan⟩, fun r m' h => ?_⟩
  obtain ⟨values, hsize, rfl, hvalues⟩ := h id buf hspan.named hspan.present
  exact ⟨fun e he => hgood e values hsize (hvalues e he), fun e _ => hbad e values hsize⟩

theorem ensures_read {device : DeviceId} {b : Option BufferId} {offset : Int} {count : Nat}
    {cell : CellId} {cellOffset : Nat} {id : BufferId} {buf : Buffer} {a : Array Scalar}
    {good : Event → τ → Memory → Prop} (hspan : m.Span device b offset count id buf)
    (hcell : m.cell cell = some a) (hroom : cellOffset + count ≤ a.size)
    (hgood : ∀ e a', a'.size = a.size → a'.toList =
      overlay cellOffset ((buf.data.toList.drop offset.toNat).take count) a.toList →
      good e s (m.setCell cell a'))
    (hbad : ∀ e a', a'.size = a.size → bad (.device e) s (m.setCell cell a')) :
    (issue (Program.ask (.read device b offset count cell cellOffset)) : Task τ Event).Ensures
      (deviceContract A suits) good bad s m := by
  rw [ensures_issue, Program.ensures_ask]
  refine ⟨⟨⟨id, buf, hspan⟩, a, hcell, hroom⟩, fun r m' h => ?_⟩
  obtain ⟨a', hsize, rfl, ha'⟩ := h id buf a hspan.named hspan.present hcell
  exact ⟨fun e he => hgood e a' hsize (ha' e he), fun e _ => hbad e a' hsize⟩

theorem ensures_copy {device : DeviceId} {source target : Option BufferId} {count : Nat}
    {sourceOffset targetOffset : Int} {id id' : BufferId} {buf buf' : Buffer}
    {good : Event → τ → Memory → Prop} (hsource : m.Span device source sourceOffset count id buf)
    (htarget : m.Span device target targetOffset count id' buf') (hne : id ≠ id')
    (hgood : ∀ e values, values.size = buf'.data.size → values.toList =
      overlay targetOffset.toNat ((buf.data.toList.drop sourceOffset.toNat).take count)
        buf'.data.toList →
      good e s (m.setBuffer id' { buf' with data := values }))
    (hbad : ∀ e values, values.size = buf'.data.size →
      bad (.device e) s (m.setBuffer id' { buf' with data := values })) :
    (issue (Program.ask (.copy device source target count sourceOffset targetOffset)) :
      Task τ Event).Ensures (deviceContract A suits) good bad s m := by
  rw [ensures_issue, Program.ensures_ask]
  refine ⟨⟨id, buf, id', buf', hsource, htarget, hne⟩, fun r m' h => ?_⟩
  obtain ⟨values, hsize, rfl, hvalues⟩ :=
    h id buf hsource.named hsource.present id' buf' htarget.named htarget.present
  exact ⟨fun e he => hgood e values hsize (hvalues e he), fun e _ => hbad e values hsize⟩

theorem ensures_launch {device : DeviceId} {source : KernelSource} {grid workgroup : Int}
    {target : BufferId} {buf : Buffer} {rest : List Argument} {good : Event → τ → Memory → Prop}
    (hsuits : suits device source workgroup) (hrun : m.Launchable device source target buf rest)
    (hgood : ∀ e values, values.size = buf.data.size →
      m.Computes A source buf.type buf.data.size rest values.toList →
      good e s (m.setBuffer target { buf with data := values }))
    (hbad : ∀ e values, values.size = buf.data.size →
      bad (.device e) s (m.setBuffer target { buf with data := values })) :
    (issue (Program.ask (.launch device source grid workgroup
      (.scalar (.element .uint64) (.int buf.data.size) :: .buffer (some target) :: rest))) :
      Task τ Event).Ensures (deviceContract A suits) good bad s m := by
  rw [ensures_issue, Program.ensures_ask]
  refine ⟨⟨hsuits, target, buf, rest, rfl, hrun⟩, fun r m' h => ?_⟩
  obtain ⟨values, hsize, rfl, hvalues⟩ := h target buf rfl hrun.present
  exact ⟨fun e he => hgood e values hsize (hvalues e he), fun e _ => hbad e values hsize⟩

theorem ensures_wait {device : DeviceId} {e : Event} {good : Unit → τ → Memory → Prop}
    (hgood : good () s m) (hbad : ∀ e, bad (.device e) s m) :
    (issue (Program.ask (.wait device e)) : Task τ Unit).Ensures (deviceContract A suits)
      good bad s m := by
  rw [ensures_issue, Program.ensures_ask]
  refine ⟨trivial, ?_⟩
  rintro r m' rfl
  exact ⟨fun _ _ => hgood, fun e _ => hbad e⟩

theorem ensures_synchronize {device : DeviceId} {good : Unit → τ → Memory → Prop}
    (hgood : good () s m) (hbad : ∀ e, bad (.device e) s m) :
    (issue (Program.ask (.synchronize device)) : Task τ Unit).Ensures
      (deviceContract A suits) good bad s m := by
  rw [ensures_issue, Program.ensures_ask]
  refine ⟨trivial, ?_⟩
  rintro r m' rfl
  exact ⟨fun _ _ => hgood, fun e _ => hbad e⟩

theorem ensures_build {device : DeviceId} {source : KernelSource} {good : Unit → τ → Memory → Prop}
    (hgood : good () s m) (hbad : ∀ e, bad (.device e) s m) :
    (issue (Program.ask (.build device source)) : Task τ Unit).Ensures
      (deviceContract A suits) good bad s m := by
  rw [ensures_issue, Program.ensures_ask]
  refine ⟨trivial, ?_⟩
  rintro r m' rfl
  exact ⟨fun _ _ => hgood, fun e _ => hbad e⟩

theorem ensures_report {record : LogRecord} {good : Unit → τ → Memory → Prop}
    (hgood : good () s m) : (report record : Task τ Unit).Ensures (deviceContract A suits)
      good bad s m := by
  rw [report, Task.ensures_perform, Program.ensures_ask]
  refine ⟨trivial, ?_⟩
  rintro r m' rfl
  exact hgood

theorem ensures_clock {good : Float → τ → Memory → Prop} (hgood : ∀ t, good t s m) :
    (Task.perform (Program.ask .clock) : Task τ Float).Ensures (deviceContract A suits)
      good bad s m := by
  rw [Task.ensures_perform, Program.ensures_ask]
  refine ⟨trivial, ?_⟩
  rintro r m' rfl
  exact hgood r

theorem ensures_multiply {operator : String} {alpha : Float} {append : Bool}
    {good : Unit → τ → Memory → Prop} (hgood : good () s m) :
    (Task.perform (Program.ask (.multiply operator alpha append)) : Task τ Unit).Ensures
      (deviceContract A suits) good bad s m := by
  rw [Task.ensures_perform, Program.ensures_ask]
  refine ⟨trivial, ?_⟩
  rintro r m' rfl
  exact hgood

theorem ensures_hostArray {count : Nat} {type : DataType} {good : CellId → τ → Memory → Prop}
    (hgood : ∀ c a, m.cell c = none → a.size = count → good c s (m.setCell c a)) :
    (Task.perform (Program.ask (.hostArray count type)) : Task τ CellId).Ensures
      (deviceContract A suits) good bad s m := by
  rw [Task.ensures_perform, Program.ensures_ask]
  refine ⟨trivial, fun c m' h => ?_⟩
  obtain ⟨hnew, a, hsize, rfl⟩ := h
  exact hgood c a hnew hsize

theorem ensures_hostContents {cell : CellId} {offset count : Nat} {a : Array Scalar}
    {good : Array Scalar → τ → Memory → Prop} (hcell : m.cell cell = some a)
    (hroom : offset + count ≤ a.size) (hgood : good (a.extract offset (offset + count)) s m) :
    (Task.perform (Program.ask (.hostContents cell offset count)) : Task τ (Array Scalar)).Ensures
      (deviceContract A suits) good bad s m := by
  rw [Task.ensures_perform, Program.ensures_ask]
  refine ⟨⟨a, hcell, hroom⟩, fun values m' h => ?_⟩
  obtain ⟨rfl, hvalues⟩ := h
  rw [hvalues a hcell]
  exact hgood

end Rules

end DistributedVector
