import DistributedVector.Task
import DistributedVector.Vector.Descriptor
import DistributedVector.Vector.Host

/-!
# Transfers

Elements go between the host and the devices in ranges. Every device that owns a part of the range
gets one command, in device order, whose event is noted in the shard; a blocking transfer then waits
for each of them. A range that leaves the vector, and host data that does not fit, are refused
before any command.

## Main definitions

* `Vector.write`, `Vector.read`, `Vector.readAll` — transfers of ranges
* `Vector.synchronize` — waits for all commands
* `Vector.writeElements`, `Vector.readElement` — transfers at a position of a shard
-/

namespace DistributedVector

namespace Vector

/-- Starts writing the pieces of a range. -/
def startWrites (data : Array Scalar) : List Piece → Task Descriptor Unit
  | [] => return ()
  | p :: rest => do
    let chunk := data.extract p.rangeOffset (p.rangeOffset + p.count)
    let e ← issue (Program.ask (.write p.device p.buffer p.localOffset [chunk.size] chunk))
    modify (·.setEvent p.shard e)
    startWrites data rest

/-- Starts reading the pieces of a range into a host array. -/
def startReads (view : HostView) : List Piece → Task Descriptor Unit
  | [] => return ()
  | p :: rest => do
    let e ← issue (Program.ask
      (.read p.device p.buffer p.localOffset p.count view.cell (view.offset + p.rangeOffset)))
    modify (·.setEvent p.shard e)
    startReads view rest

/-- Waits for the last command on each shard of the pieces. -/
def waitFor : List Piece → Task Descriptor Unit
  | [] => return ()
  | p :: rest => do
    match (← get).event? p.shard with
    | some e => issue (Program.ask (.wait p.device e))
    | none => pure ()
    waitFor rest

/-- Refuses a range that leaves the vector. -/
def checkRange (offset count : Int) : Task Descriptor Unit := do
  orFault .vector ((← get).checkRange offset count)

/-- Writes the first `count` host elements to the range from `offset` on. Nothing happens for
no elements. Elements that do not fit are refused before it is checked that there are enough. -/
def write (offset count : Int) (data : HostData) (blocking : Bool) : Task Descriptor Unit := do
  if count = 0 then return
  checkRange offset count
  let d ← get
  let values ← orFault .number (data.elements d.type count.toNat)
  if values.size < count then throw (.vector (.sourceTooShort values.size count))
  let pieces := d.pieces offset.toNat count.toNat
  startWrites values pieces
  if blocking then waitFor pieces

/-- Where a read puts its elements. -/
inductive ReadTarget
  /-- an array made for the purpose -/
  | fresh
  /-- a given array -/
  | array (view : HostView)
  /-- something that cannot receive elements -/
  | unsuitable

/-- A new host array of `count` elements. -/
def newArray {σ : Type} (type : ElementType) (count : Nat) : Task σ HostView := do
  let cell ← Task.perform (Program.ask (.hostArray count (.element type)))
  return ⟨cell, 0, .element type, [count], true, true⟩

/-- The array that a read puts its elements into. -/
def target (type : ElementType) (count : Int) : ReadTarget → Task Descriptor HostView
  | .fresh => do
    if count < 0 then throw (.vector .negativeCount)
    newArray type count.toNat
  | .array view => do
    unless view.type = .element type ∧ view.contiguous ∧ view.writeable do
      throw (.vector (.unsuitableTarget type))
    return view
  | .unsuitable => throw (.vector (.unsuitableTarget type))

/-- Reads the range of `count` elements from `offset` on into a host array, which is returned. -/
def read (offset count : Int) (goal : ReadTarget) (blocking : Bool) :
    Task Descriptor HostView := do
  let view ← target (← get).type count goal
  if count = 0 then return view
  checkRange offset count
  if view.size < count then throw (.vector (.targetTooShort view.size count))
  let pieces := (← get).pieces offset.toNat count.toNat
  startReads view pieces
  if blocking then waitFor pieces
  return view

/-- The contents of a host array. -/
def contents {σ : Type} (view : HostView) : Task σ HostData := do
  let values ← Task.perform (Program.ask (.hostContents view.cell view.offset view.size))
  return ⟨view.type, view.shape, values⟩

/-- Reads a range into a new array and returns its elements. -/
def readRange (offset count : Int) : Task Descriptor HostData := do
  contents (← read offset count .fresh true)

/-- Reads all elements. -/
def readAll : Task Descriptor HostData := do readRange 0 (← get).size

/-- Waits for all commands of the given devices. -/
def drain {σ : Type} : List DeviceId → Task σ Unit
  | [] => return ()
  | d :: rest => do
    issue (Program.ask (.synchronize d))
    drain rest

/-- Waits for all commands of the vector's devices. -/
def synchronize : Task Descriptor Unit := do drain (← get).devices

/-- A shard by number, which has to be a shard of the vector. -/
def shard (index : Nat) : Task Descriptor Shard := do
  match (← get).shards[index]? with
  | some s => return s
  | none => throw (.vector .noSuchDevice)

/-- Reads the element at a position of a shard and waits for it. The shard's last command stays
noted as before. -/
def readElement (index : Nat) (position : Int) : Task Descriptor Scalar := do
  let s ← shard index
  let view ← newArray (← get).type 1
  let e ← issue (Program.ask (.read s.device s.buffer position 1 view.cell view.offset))
  issue (Program.ask (.wait s.device e))
  let data ← contents view
  return data.values.getD 0 default

/-- Writes data from a position of a shard on, as it is, and waits for it. The shard's last command
stays noted as before. -/
def writeElements (index : Nat) (position : Int) (data : HostData) : Task Descriptor Unit := do
  let s ← shard index
  let e ← issue (Program.ask (.write s.device s.buffer position data.shape data.values))
  issue (Program.ask (.wait s.device e))

end Vector

end DistributedVector
