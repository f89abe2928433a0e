import DistributedVector.Kernel.Source
import DistributedVector.Session.Config
import DistributedVector.Task

/-!
# Kernel caches

A session compiles one kernel for each compute context and kernel shape, on first use, and keeps it.
The workgroup of a kernel fits every device of the group that it is compiled for.

## Main definitions

* `selectWorkgroup` — the largest fitting workgroup
* `groupByContext` — devices by context
* `KernelCache`, `KernelCache.getOrBuild`, `KernelCache.kernelsFor`
-/

namespace DistributedVector

/-- What is known of each device. -/
abbrev Hardware := DeviceId → Device

/-- Halves a size until it is at most `limit` or 1. -/
def halveTo (limit size : Int) : Int :=
  if h : limit < size ∧ 1 < size then halveTo limit (size / 2) else size
termination_by size.toNat
decreasing_by omega

/-- The largest workgroup that fits all limits, among a power of two and its halves. -/
def selectWorkgroup (limits : List Int) (ceiling : Int) : Int :=
  limits.foldl (fun size limit => halveTo limit size) ceiling

/-- Adds a device to the group of its context, or a group behind the others. -/
def addToGroup (context : Key) (d : DeviceId) :
    List (Key × List DeviceId) → List (Key × List DeviceId)
  | [] => [(context, [d])]
  | (k, ds) :: rest =>
    if k = context then (k, ds ++ [d]) :: rest else (k, ds) :: addToGroup context d rest

/-- Devices by context, contexts in the order in which they are first seen. -/
def groupByContext (contextOf : DeviceId → Key) (devices : List DeviceId) :
    List (Key × List DeviceId) :=
  devices.foldl (fun groups d => addToGroup (contextOf d) d groups) []

/-- A kernel ready to be launched, with the workgroup chosen for it. -/
structure CompiledKernel where
  source : KernelSource
  workgroup : Int

/-- The kernel compiled for a context and a shape. -/
structure CacheEntry where
  context : Key
  shape : KernelShape
  kernel : CompiledKernel

/-- The compiled kernels in the order in which they were built, and how often kernels were built
and found. -/
structure KernelCache where
  entries : List CacheEntry := []
  builds : Nat := 0
  hits : Nat := 0

namespace KernelCache

/-- The kernel of a context and a shape. -/
def find? (c : KernelCache) (context : Key) (shape : KernelShape) : Option CompiledKernel :=
  (c.entries.find? fun e => e.context = context ∧ e.shape.key = shape.key).map (·.kernel)

/-- Keeps a kernel that has been built. -/
def insert (c : KernelCache) (context : Key) (shape : KernelShape) (kernel : CompiledKernel) :
    KernelCache :=
  { c with entries := c.entries ++ [⟨context, shape, kernel⟩], builds := c.builds + 1 }

/-- Counts a kernel that has been found. -/
def hit (c : KernelCache) : KernelCache := { c with hits := c.hits + 1 }

/-- The workgroup for a kernel on all devices of a group. -/
def workgroupFor (config : SessionConfig) (hardware : Hardware) (group : List DeviceId)
    (source : KernelSource) : Int :=
  selectWorkgroup
    (group.map fun d => min (hardware d).maxWorkgroup ((hardware d).kernelMaxWorkgroup source))
    config.maxWorkgroup

/-- Compiles the kernel of a formula on the first device of a group. -/
def build {σ : Type} (config : SessionConfig) (hardware : Hardware) (first : DeviceId)
    (group : List DeviceId) (f : Formula DataType) (result : DataType) :
    Task σ CompiledKernel := do
  let source ← orFault .expr (KernelSource.ofFormula f result)
  if config.logsSource then report (.generated source.name source.text)
  issue (Program.ask (.build first source))
  let workgroup := workgroupFor config hardware group source
  report (.compiled source.name (hardware first).context workgroup)
  return ⟨source, workgroup⟩

/-- The kernel that computes a formula into a result type on the devices of one context, compiled
on first use. No result type stands for doubles, with a shape of its own. -/
def getOrBuild (config : SessionConfig) (hardware : Hardware) (group : List DeviceId)
    (f : Formula DataType) (result : Option DataType) : Task KernelCache CompiledKernel :=
  match group with
  | [] => throw (.vector .noContext)
  | first :: _ => do
    let context := (hardware first).context
    let shape := f.kernelShape result
    match (← get).find? context shape with
    | some kernel =>
      modify hit
      return kernel
    | none =>
      let kernel ← build config hardware first group f (result.getD .unnamed)
      modify (·.insert context shape kernel)
      return kernel

/-- The kernels for groups of devices, each with its context. -/
def kernelsForGroups (config : SessionConfig) (hardware : Hardware) (f : Formula DataType)
    (result : Option DataType) :
    List (Key × List DeviceId) → Task KernelCache (List (Key × CompiledKernel))
  | [] => return []
  | (context, group) :: rest => do
    let kernel ← getOrBuild config hardware group f result
    return (context, kernel) :: (← kernelsForGroups config hardware f result rest)

/-- The kernel for every context among devices. -/
def kernelsFor (config : SessionConfig) (hardware : Hardware) (devices : List DeviceId)
    (f : Formula DataType) (result : Option DataType) :
    Task KernelCache (List (Key × CompiledKernel)) :=
  kernelsForGroups config hardware f result
    (groupByContext (fun d => (hardware d).context) devices)

end KernelCache

end DistributedVector
