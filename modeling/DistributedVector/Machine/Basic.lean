import DistributedVector.Device.Program
import DistributedVector.Machine.Arithmetic

/-!
# The reference machine

A machine that executes every command at once. Its devices share one numbering of buffers and one of
events, hold buffer contents as scalars, advance a clock by a fixed cost for each launch, and record
what they do in a trace. Reports are kept in a log. A device can be told to fail a kind of command,
from the next one on or after some that succeed, and to refuse every build.

## Main definitions

* `Machine` — devices, buffers, host arrays, clock, trace and log
* `Machine.handle` — the machine as a handler of calls
-/

namespace DistributedVector

/-- The commands that a device can be told to fail. -/
inductive FailPoint
  | alloc | write | read | copy | launch | wait | sync
  deriving DecidableEq, Repr

/-- The word for a command in traces. -/
def FailPoint.name : FailPoint → String
  | alloc => "alloc"
  | write => "write"
  | read => "read"
  | copy => "copy"
  | launch => "launch"
  | wait => "wait"
  | sync => "sync"

/-- The command of a word. -/
def FailPoint.ofName? (s : String) : Option FailPoint :=
  [alloc, write, read, copy, launch, wait, sync].find? (·.name == s)

/-- The name of the operation in failures. -/
def FailPoint.operation : FailPoint → String
  | alloc => "allocate"
  | write => "write buffer"
  | read => "read buffer"
  | copy => "copy buffer"
  | launch => "launch"
  | wait => "wait"
  | sync => "synchronize"

/-- An order to fail: how many commands still succeed, and how the others fail. -/
structure Failure where
  after : Int
  category : FaultCategory
  message : String
  status : Option Int

/-- The settings of one device of the machine. -/
structure MachineDevice where
  failures : List (FailPoint × Failure)
  buildError : Option String
  /-- whether launches change data -/
  executes : Bool
  /-- seconds that a launch takes -/
  cost : Float

/-- Gives an order to fail a command, or takes it back. -/
def MachineDevice.order (d : MachineDevice) (point : FailPoint) (f : Option Failure) :
    MachineDevice :=
  { d with failures := d.failures.filter (·.1 ≠ point) ++ (f.map fun f => (point, f)).toList }

/-- A device buffer and its contents. -/
structure Buffer where
  device : DeviceId
  type : ElementType
  access : Access
  data : Array Scalar

/-- What a device reports to have done. -/
inductive TraceEntry
  | alloc (device : DeviceId) (buffer : BufferId) (size : Nat) (type : ElementType)
      (access : Access)
  | write (device : DeviceId) (buffer : BufferId) (offset : Int) (count : Nat) (event : Event)
  | read (device : DeviceId) (buffer : BufferId) (offset : Int) (count : Nat) (event : Event)
  | copy (device : DeviceId) (source target : BufferId) (count : Nat)
      (sourceOffset targetOffset : Int) (event : Event)
  | build (device : DeviceId) (kernel : String)
  | launch (device : DeviceId) (kernel : String) (grid workgroup : Int) (args : List Argument)
      (event : Event)
  | wait (device : DeviceId) (event : Event)
  | sync (device : DeviceId)
  | fail (device : DeviceId) (point : FailPoint)
  | multiply (operator : String) (alpha : Float) (append : Bool)

/-- Devices that execute every command at once. Buffers and events are numbered from 1, host arrays
from 0. -/
structure Machine where
  devices : Array MachineDevice
  buffers : Array Buffer
  cells : Array (Array Scalar)
  events : Nat
  clock : Float
  trace : Array TraceEntry
  log : Array LogRecord

namespace Machine

/-- A machine of which nothing has been asked yet. -/
def initial (devices : Array MachineDevice) : Machine := ⟨devices, #[], #[], 0, 0, #[], #[]⟩

/-- The buffer of a number. -/
def buffer? (m : Machine) (b : BufferId) : Option Buffer :=
  if b = 0 then none else m.buffers[b - 1]?

/-- The elements of `a` with `xs` written over those from `offset` on. -/
def overwrite {α : Type} (a : Array α) (offset : Nat) (xs : Array α) : Array α :=
  a.extract 0 offset ++ xs ++ a.extract (offset + xs.size) a.size

/-- Replaces the contents of a buffer. -/
def setData (m : Machine) (b : BufferId) (data : Array Scalar) : Machine :=
  { m with buffers := m.buffers.modify (b - 1) fun buf => { buf with data } }

/-- Adds an entry to the trace. -/
def note (m : Machine) (e : TraceEntry) : Machine := { m with trace := m.trace.push e }

/-- Numbers the next event. -/
def nextEvent (m : Machine) (kind : CommandKind) : Event × Machine :=
  (⟨kind, m.events + 1⟩, { m with events := m.events + 1 })

/-- Consults the orders to fail: an order with commands left lets this one pass and counts it. -/
def permit (m : Machine) (device : DeviceId) (point : FailPoint) :
    Except DeviceFault Unit × Machine :=
  match m.devices[device]? with
  | none => (.ok (), m)
  | some d =>
    match d.failures.lookup point with
    | none => (.ok (), m)
    | some f =>
      if 0 < f.after then
        let failures := d.failures.map fun g =>
          if g.1 = point then (g.1, { g.2 with after := g.2.after - 1 }) else g
        (.ok (), { m with devices := m.devices.setIfInBounds device { d with failures } })
      else
        (.error (.operation ⟨point.operation, f.category, f.message, f.status⟩),
          m.note (.fail device point))

/-- The refusal of a range that leaves its buffer. -/
def outside (point : FailPoint) : DeviceFault :=
  .operation ⟨point.operation, .invalidArgument, "range outside buffer", some 1⟩

/-- The buffer and the offset as a natural number, if `count` elements from `offset` on lie in the
buffer. -/
def range? (m : Machine) (b : Option BufferId) (offset : Int) (count : Nat) :
    Option (BufferId × Buffer × Nat) := do
  let id ← b
  let buf ← m.buffer? id
  if 0 ≤ offset ∧ offset + count ≤ buf.data.size then some (id, buf, offset.toNat) else none

/-- The values of a kernel parameter at each index of a launch. -/
inductive Bound
  | entries (type : ElementType) (data : Array Scalar)
  | value (x : Scalar)

/-- What an argument binds. -/
def bound (m : Machine) : Argument → Bound
  | .buffer (some b) =>
    match m.buffer? b with
    | some buf => .entries buf.type buf.data
    | none => .value default
  | .buffer none => .value default
  | .scalar (.element t) x => .value (Arithmetic.wide.load t x)
  | .scalar (.foreign _) x => .value x

/-- The value of a bound parameter at an index. -/
def Bound.at : Bound → Nat → Scalar
  | entries t data, i => Arithmetic.wide.load t (data.getD i default)
  | value x, _ => x

/-- The results that a kernel stores for the first `n` indices. -/
def results (type : ElementType) (text : String) (params : List Bound) (n : Nat) : Array Scalar :=
  let k := KernelText.read text
  Array.ofFn (n := n) fun i =>
    Arithmetic.wide.store type (Arithmetic.wide.computeRead text k (params.map (·.at i)))

/-- Runs a kernel: reads all parameters, then stores the results over the first elements of the
result buffer. -/
def execute (m : Machine) (source : KernelSource) : List Argument → Machine
  | .scalar _ (.int n) :: .buffer (some b) :: params =>
    match m.buffer? b with
    | none => m
    | some buf =>
      let bounds := params.map m.bound
      m.setData b (overwrite buf.data 0 (results buf.type source.text bounds n.toNat))
  | _ => m

/-- A command that leaves an event behind: permitted, then carried out. -/
def command (m : Machine) (device : DeviceId) (point : FailPoint)
    (act : Machine → Except DeviceFault Event × Machine) : Except DeviceFault Event × Machine :=
  match m.permit device point with
  | (.error e, m) => (.error e, m)
  | (.ok (), m) => act m

/-- The machine as a handler of calls. -/
def handle : Handler Machine
  | .allocate device size type access, m =>
    match m.permit device .alloc with
    | (.error e, m) => (.error e, m)
    | (.ok (), m) =>
      let id := m.buffers.size + 1
      let data := Array.replicate size type.zero
      (.ok id, { m with buffers := m.buffers.push ⟨device, type, access, data⟩ }.note
        (.alloc device id size type access))
  | .write device buffer offset shape data, m =>
    m.command device .write fun m =>
      match m.range? buffer offset data.size, isRow shape with
      | none, _ => (.error (outside .write), m)
      | some _, false => (.error .severalRows, m)
      | some (id, buf, start), true =>
        let (e, m) := m.nextEvent .write
        (.ok e, (m.setData id (overwrite buf.data start data)).note
          (.write device id offset data.size e))
  | .read device buffer offset count cell cellOffset, m =>
    m.command device .read fun m =>
      match m.range? buffer offset count with
      | none => (.error (outside .read), m)
      | some (id, buf, start) =>
        let (e, m) := m.nextEvent .read
        let part := buf.data.extract start (start + count)
        let cells := m.cells.modify cell fun c => overwrite c cellOffset part
        (.ok e, { m with cells }.note (.read device id offset count e))
  | .copy device source target count sourceOffset targetOffset, m =>
    m.command device .copy fun m =>
      match m.range? source sourceOffset count, m.range? target targetOffset count with
      | some (sourceId, sourceBuf, sourceStart), some (targetId, targetBuf, targetStart) =>
        let (e, m) := m.nextEvent .copy
        let part := sourceBuf.data.extract sourceStart (sourceStart + count)
        (.ok e, (m.setData targetId (overwrite targetBuf.data targetStart part)).note
          (.copy device sourceId targetId count sourceOffset targetOffset e))
      | _, _ => (.error (outside .copy), m)
  | .build device source, m =>
    let m := m.note (.build device source.name)
    match m.devices[device]?.bind (·.buildError) with
    | some log => (.error (.build ⟨source.name, log, source.text⟩), m)
    | none => (.ok (), m)
  | .launch device source grid workgroup args, m =>
    m.command device .launch fun m =>
      let (e, m) := m.nextEvent .launch
      let cost := (m.devices[device]?.map (·.cost)).getD 0
      let executes := (m.devices[device]?.map (·.executes)).getD true
      let m := { m with clock := m.clock + cost }.note
        (.launch device source.name grid workgroup args e)
      (.ok e, if executes then m.execute source args else m)
  | .wait device event, m =>
    match m.permit device .wait with
    | (.error e, m) => (.error e, m)
    | (.ok (), m) => (.ok (), m.note (.wait device event))
  | .synchronize device, m =>
    match m.permit device .sync with
    | (.error e, m) => (.error e, m)
    | (.ok (), m) => (.ok (), m.note (.sync device))
  | .hostArray count type, m =>
    let zero := match type with
      | .element t => t.zero
      | .foreign _ => .int 0
    (m.cells.size, { m with cells := m.cells.push (Array.replicate count zero) })
  | .hostContents cell offset count, m =>
    ((m.cells.getD cell #[]).extract offset (offset + count), m)
  | .clock, m => (m.clock, m)
  | .report record, m => ((), { m with log := m.log.push record })
  | .multiply operator alpha append, m => ((), m.note (.multiply operator alpha append))

end Machine

end DistributedVector
