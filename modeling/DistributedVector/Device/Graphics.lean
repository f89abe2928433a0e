import DistributedVector.Fault

/-!
# Graphics devices

Graphics devices are opened through a library that may be missing, and report failures by status
codes, which are sorted into the categories of device faults.

## Main definitions

* `FaultCategory.ofStatus` — the category of a status code
* `GraphicsLibrary`, `GraphicsLibrary.openAll` — opening devices
* `GraphicsLibrary.missing` — the library where it is not installed
-/

namespace DistributedVector

/-- The category of a status code. -/
def FaultCategory.ofStatus : Option Int → FaultCategory
  | some 1 | some 101 => invalidArgument
  | some 2 | some 701 => resourceExhaustion
  | some 3 | some 201 | some 400 => invalidState
  | some 9 => invalidKernelArgs
  | some 801 => unsupported
  | _ => unknown

/-- How many devices a library sees, and how it opens one. -/
structure GraphicsLibrary where
  count : Nat
  openDevice : Int → Except Fault Device

namespace GraphicsLibrary

/-- A library that is not installed sees no device and opens none. -/
def missing : GraphicsLibrary := ⟨0, fun _ => .error .noGraphics⟩

/-- Opens devices by number, each with the given number of queues; all that are seen unless numbers
are given. -/
def openAll (library : GraphicsLibrary) (numbers : Option (List Int)) (queues : Int) :
    Except Fault (List Device) := do
  let numbers := numbers.getD ((List.range library.count).map Int.ofNat)
  let devices ← (numbers.flatMap (List.replicate queues.toNat)).mapM library.openDevice
  if devices.isEmpty then throw .noGraphicsDevice
  return devices

end GraphicsLibrary

end DistributedVector
