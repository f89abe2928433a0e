import DistributedVector.Device.Basic
import DistributedVector.Log

/-!
# Calls

What a computation on distributed vectors asks of its surroundings, as data: commands to devices,
arrays of the host that transfers go to, the clock, the log, and the start of a product with an
external operator. Device commands may fail; the reply of each call says what it gives back.

## Main definitions

* `Argument` — what a launch binds to a kernel parameter
* `Call`, `Call.Reply`
-/

namespace DistributedVector

/-- The number of a host array. -/
abbrev CellId := Nat

/-- What a launch binds to a kernel parameter. -/
inductive Argument
  | buffer (b : Option BufferId)
  | scalar (type : DataType) (value : Scalar)

/-- What a computation asks of its surroundings. -/
inductive Call
  /-- a buffer of `size` elements -/
  | allocate (device : DeviceId) (size : Nat) (type : ElementType) (access : Access)
  /-- copies host data with lengths `shape` along its axes into a buffer, which takes a single
  row -/
  | write (device : DeviceId) (buffer : Option BufferId) (offset : Int) (shape : List Nat)
      (data : Array Scalar)
  /-- copies `count` elements of a buffer into a host array -/
  | read (device : DeviceId) (buffer : Option BufferId) (offset : Int) (count : Nat)
      (cell : CellId) (cellOffset : Nat)
  /-- copies `count` elements from one buffer of the device into another -/
  | copy (device : DeviceId) (source target : Option BufferId) (count : Nat)
      (sourceOffset targetOffset : Int)
  /-- compiles a kernel for the device's context -/
  | build (device : DeviceId) (source : KernelSource)
  /-- runs a kernel on `grid` workgroups of `workgroup` threads -/
  | launch (device : DeviceId) (source : KernelSource) (grid workgroup : Int)
      (args : List Argument)
  /-- waits for a command to be completed -/
  | wait (device : DeviceId) (event : Event)
  /-- waits for all commands of a device -/
  | synchronize (device : DeviceId)
  /-- a host array of `count` elements -/
  | hostArray (count : Nat) (type : DataType)
  /-- the contents of a host array from an offset on -/
  | hostContents (cell : CellId) (offset count : Nat)
  /-- the time in seconds -/
  | clock
  /-- a record for the log -/
  | report (record : LogRecord)
  /-- an external operator starts to multiply -/
  | multiply (operator : String) (alpha : Float) (append : Bool)

namespace Call

/-- What a call gives back. -/
abbrev Reply : Call → Type
  | allocate .. => Except DeviceFault BufferId
  | write .. => Except DeviceFault Event
  | read .. => Except DeviceFault Event
  | copy .. => Except DeviceFault Event
  | build .. => Except DeviceFault Unit
  | launch .. => Except DeviceFault Event
  | wait .. => Except DeviceFault Unit
  | synchronize .. => Except DeviceFault Unit
  | hostArray .. => CellId
  | hostContents .. => Array Scalar
  | clock => Float
  | report .. => Unit
  | multiply .. => Unit

end Call

end DistributedVector
