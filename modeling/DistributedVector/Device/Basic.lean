import DistributedVector.Key
import DistributedVector.Kernel.Source

/-!
# Devices

A device is one compute context with one queue of commands. Several devices may share a context and
then share kernels. Devices are referred to by number; what is known of a device does not change.

## Main definitions

* `DeviceId`, `BufferId`, `Event` — references handed out by devices
* `Device` — what is known of a device
* `Access` — how kernels may use a buffer
* `isRow` — whether an array has the form that a buffer takes
* `DeviceFault` — why a command fails
-/

namespace DistributedVector

/-- The number of a device. -/
abbrev DeviceId := Nat

/-- The number of a device buffer. -/
abbrev BufferId := Nat

/-- Processors work on one element per thread; graphics devices stride over the elements. -/
inductive DeviceClass
  | processor | graphics
  deriving DecidableEq, Repr

/-- How kernels may use a buffer. -/
inductive Access
  | readWrite | readOnly | writeOnly
  deriving DecidableEq, Repr

/-- The commands that leave an event behind. -/
inductive CommandKind
  | write | read | copy | launch
  deriving DecidableEq, Repr

/-- Whether an array with the given lengths along its axes is a single row: a buffer has one axis,
so all others have to be of length one. -/
def isRow (shape : List Nat) : Bool := shape.dropLast.all (· == 1)

@[simp] theorem isRow_singleton (n : Nat) : isRow [n] = true := rfl

/-- The completion of a command. -/
structure Event where
  kind : CommandKind
  number : Nat
  deriving DecidableEq, Repr

/-- What is known of a device. -/
structure Device where
  name : String
  /-- identity of the compute context, which kernels belong to -/
  context : Key
  kind : DeviceClass
  /-- the largest workgroup that the device runs -/
  maxWorkgroup : Int
  /-- the largest workgroup that the device runs for a kernel -/
  kernelMaxWorkgroup : KernelSource → Int
  computeUnits : Int

/-- The name of a class, as reports print it. -/
def DeviceClass.name : DeviceClass → String
  | processor => "CPU"
  | graphics => "GPU"

/-- The name of an access mode, as reports print it. -/
def Access.name : Access → String
  | readWrite => "READ_WRITE"
  | readOnly => "READ_ONLY"
  | writeOnly => "WRITE_ONLY"

/-- The access mode of a name. -/
def Access.ofName? (s : String) : Option Access :=
  [readWrite, readOnly, writeOnly].find? (·.name == s)

/-- The word for a command in events. -/
def CommandKind.name : CommandKind → String
  | write => "write"
  | read => "read"
  | copy => "copy"
  | launch => "launch"

/-- The text of an event. -/
def Event.render (e : Event) : String := e.kind.name ++ "#" ++ toString e.number

/-- The causes that failures of device operations are sorted into. -/
inductive FaultCategory
  | resourceExhaustion | invalidArgument | invalidState | invalidKernelArgs | unsupported | unknown
  deriving DecidableEq, Repr

/-- The words for a category in messages. -/
def FaultCategory.description : FaultCategory → String
  | resourceExhaustion => "resource exhaustion"
  | invalidArgument => "invalid argument or size"
  | invalidState => "invalid queue or context state"
  | invalidKernelArgs => "invalid kernel arguments"
  | unsupported => "unsupported operation"
  | unknown => "unknown"

/-- The name of a category, as reports print it. -/
def FaultCategory.name : FaultCategory → String
  | resourceExhaustion => "RESOURCE_EXHAUSTION"
  | invalidArgument => "INVALID_ARGUMENT"
  | invalidState => "INVALID_STATE"
  | invalidKernelArgs => "INVALID_KERNEL_ARGS"
  | unsupported => "UNSUPPORTED"
  | unknown => "UNKNOWN"

/-- The category of a name. -/
def FaultCategory.ofName? (s : String) : Option FaultCategory :=
  [resourceExhaustion, invalidArgument, invalidState, invalidKernelArgs, unsupported,
    unknown].find? (·.name == s)

/-- A failed transfer, allocation, launch or wait. -/
structure OperationFault where
  operation : String
  category : FaultCategory
  message : String
  status : Option Int
  deriving DecidableEq, Repr

/-- A kernel that does not compile, with the log of the compiler. -/
structure BuildFault where
  kernel : String
  log : String
  source : String
  deriving DecidableEq, Repr

/-- Why a device command fails. -/
inductive DeviceFault
  | operation (fault : OperationFault)
  | build (fault : BuildFault)
  /-- the data of a write is not a single row -/
  | severalRows
  deriving DecidableEq, Repr

/-- The wording of a failed operation: what failed, why, the status and the message if given. -/
def OperationFault.render (f : OperationFault) : String :=
  f.operation ++ " failed (" ++ f.category.description ++ ")" ++
    (match f.status with
      | none => ""
      | some s => " [status " ++ toString s ++ "]") ++
    (if f.message.isEmpty then "" else ": " ++ f.message)

/-- The wording of a failed build: the kernel and the log. -/
def BuildFault.render (f : BuildFault) : String :=
  "Kernel build failed (" ++ f.kernel ++ "):\n" ++ f.log

/-- The wording of a failed command, where it has one of its own. -/
def DeviceFault.message : DeviceFault → Option String
  | operation f => some f.render
  | build f => some f.render
  | severalRows => none

end DistributedVector
