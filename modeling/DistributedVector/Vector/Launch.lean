import DistributedVector.Session.Basic
import DistributedVector.Vector.Transfer

/-!
# Launches

A compiled kernel is launched once on every device that has elements of the target, in device order
and without waiting. The arguments are the number of elements, the target's buffer, and a buffer or
scalar for each leaf of the formula.

## Main definitions

* `globalSize` — the number of threads on a device
* `Vector.bindArguments` — the arguments of a launch
* `Vector.dispatch` — the launches of a kernel
-/

namespace DistributedVector

/-- The number of threads for `elements` elements: a processor gets one for each, rounded up to
whole workgroups, a graphics device a fixed number of workgroups for each compute unit. -/
def globalSize (kind : DeviceClass) (computeUnits elements workgroup wavesPerUnit : Int) :
    Except Fault Int :=
  match kind with
  | .processor =>
    if workgroup = 0 then .error .noThreads else .ok (alignUp elements workgroup)
  | .graphics => .ok (computeUnits * workgroup * wavesPerUnit)

/-- An entry by number; negative numbers count from the end. -/
def atSigned? {α : Type} (xs : List α) (i : Int) : Option α :=
  if 0 ≤ i then xs[i.toNat]?
  else if 0 ≤ i + xs.length then xs[(i + xs.length).toNat]?
  else none

/-- A scalar as the argument of its type. -/
def scalarArgument (x : Scalar) (type : DataType) : Except NumberFault Argument := do
  let (type, x) ← type.single x
  return .scalar type x

namespace Vector

/-- The argument for a leaf on a device. -/
def leafArgument (device : Int) : Terminal Descriptor → Except Fault Argument
  | .vector v =>
    match atSigned? v.shards device with
    | some s => .ok (.buffer s.buffer)
    | none => .error (.vector .noSuchDevice)
  | .scalar x t => (scalarArgument x t).mapError .number

/-- The arguments of a launch on a device: number of elements, target, leaves. Negative device
numbers count from the end, for boundaries and for buffers each from their own. -/
def bindArguments (target : Descriptor) (device : Int) (leaves : List (Terminal Descriptor)) :
    Except Fault (List Argument) := do
  match atSigned? target.boundaries (device + 1), atSigned? target.boundaries device,
      atSigned? target.shards device with
  | some last, some first, some s =>
    if last < first then throw (.number .overflow)
    let rest ← leaves.mapM (leafArgument device)
    return .scalar (.element .uint64) (.int (last - first)) :: .buffer s.buffer :: rest
  | some last, some first, none =>
    if last < first then throw (.number .overflow) else throw (.vector .noSuchDevice)
  | _, _, _ => throw (.vector .noSuchDevice)

/-- Launches a kernel on one shard of the target. -/
def launch (session : Session) (kernels : List (Key × CompiledKernel))
    (leaves : List (Terminal Descriptor)) (index : Nat) (s : Shard) : Task Descriptor Unit := do
  let device := session.hardware s.device
  match kernels.lookup device.context with
  | none => throw (.vector .noContext)
  | some kernel =>
    let threads ← Task.ofExcept <| globalSize device.kind device.computeUnits s.length
      kernel.workgroup session.config.wavesPerUnit
    let args ← Task.ofExcept (bindArguments (← get) index leaves)
    let e ← issue (Program.ask
      (.launch s.device kernel.source (threads.fdiv kernel.workgroup) kernel.workgroup args))
    modify (·.setEvent index e)

/-- Launches a kernel on the shards that have elements, numbered from `index`. -/
def launchFrom (session : Session) (kernels : List (Key × CompiledKernel))
    (leaves : List (Terminal Descriptor)) : Nat → List Shard → Task Descriptor Unit
  | _, [] => return ()
  | index, s :: rest => do
    unless s.length = 0 do launch session kernels leaves index s
    launchFrom session kernels leaves (index + 1) rest

/-- Launches the kernels of a formula on every device that has elements of the target. -/
def dispatch (session : Session) (kernels : List (Key × CompiledKernel))
    (f : Formula Descriptor) : Task Descriptor Unit := do
  launchFrom session kernels f.terminals 0 (← get).shards

end Vector

end DistributedVector
