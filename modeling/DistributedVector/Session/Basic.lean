import DistributedVector.Partition.Performance
import DistributedVector.Partition.Strategy
import DistributedVector.Session.Cache

/-!
# Sessions

A session owns what its vectors share: settings, the partition strategy, measured throughputs and
compiled kernels. The first strategy that is set stays in force; where none has been set when a
partition is needed, partition by throughput is.

## Main definitions

* `Session`, `Session.create`
* `Session.setStrategy`
* `Session.partitionWith` — a partition, given what partition by throughput does
* `Session.kernel`, `Session.kernels` — kernels for expressions
-/

namespace DistributedVector

/-- What vectors of one session share. -/
structure Session where
  config : SessionConfig
  hardware : Hardware
  strategy : Option Strategy
  /-- how often a caller's rule has been asked -/
  asked : Nat := 0
  weights : Weights := []
  cache : KernelCache := {}

namespace Session

/-- A session without kernels. -/
def create (config : SessionConfig) (hardware : Hardware) (strategy : Option Strategy) : Session :=
  { config, hardware, strategy }

/-- A task on the kernel cache. -/
def onCache {α : Type} (t : Task KernelCache α) : Task Session α :=
  t.zoom Session.cache fun cache s => { s with cache }

/-- A task on the throughputs, beside the session. -/
def onWeights {α : Type} (t : Task (Weights × Session) α) : Task Session α :=
  t.zoom (fun s => (s.weights, s)) fun p _ => { p.2 with weights := p.1 }

/-- Puts a strategy in force, unless one is. -/
def setStrategy (strategy : Option Strategy) : Task Session Unit := do
  match (← get).strategy with
  | none => modify fun s => { s with strategy }
  | some _ => report .strategyKept

/-- The strategy in force; partition by throughput from now on if there is none. -/
def currentStrategy : Task Session Strategy := do
  match (← get).strategy with
  | some strategy => return strategy
  | none =>
    modify fun s => { s with strategy := some .performance }
    return .performance

/-- The boundaries that the strategy in force answers, given what partition by throughput does. -/
def consult (perform : Int → List DeviceId → Task Session (List Int)) (n : Int)
    (devices : List DeviceId) : Task Session (List Int) := do
  match ← currentStrategy with
  | .equally => return partitionEqually n devices.length
  | .performance => perform n devices
  | .custom rule =>
    let asked := (← get).asked
    modify fun s => { s with asked := asked + 1 }
    orFault .partition (rule asked n devices)

/-- A partition by the strategy in force, refused unless it is one. -/
def partitionWith (perform : Int → List DeviceId → Task Session (List Int)) (n : Int)
    (devices : List DeviceId) : Task Session (List Int) := do
  let part ← consult perform n devices
  orFault .partition (validatePartition part n devices.length)
  report (.partitioned n devices.length part)
  return part

/-- The kernel for every context among devices. -/
def kernelsFor (devices : List DeviceId) (f : Formula DataType) (result : Option DataType) :
    Task Session (List (Key × CompiledKernel)) := do
  let s ← get
  onCache (KernelCache.kernelsFor s.config s.hardware devices f result)

/-- The kernel for the devices of one context. -/
def getOrBuild (devices : List DeviceId) (f : Formula DataType) (result : Option DataType) :
    Task Session CompiledKernel := do
  let s ← get
  onCache (KernelCache.getOrBuild s.config s.hardware devices f result)

/-- What the kernel of an expression depends on: the expression as a formula over types, without
products, and the type of a name for the result. -/
def kernelRequest {ν : Type} (typeOf : ν → DataType) (e : Expr ν) (result : Option String) :
    Except ExprFault (Formula DataType × Option DataType) := do
  let f ← e.formula
  let type ← result.mapM fun name => DataType.named (some name)
  return (f.map typeOf, type)

/-- The kernel for an expression on the devices of one context, of which there has to be one. -/
def kernel {ν : Type} (typeOf : ν → DataType) (devices : List DeviceId) (e : Expr ν)
    (result : Option String) : Task Session CompiledKernel := do
  if devices.isEmpty then throw (.vector .noContext)
  let (f, type) ← orFault .expr (kernelRequest typeOf e result)
  getOrBuild devices f type

/-- The kernel for an expression for every context among devices. -/
def kernels {ν : Type} (typeOf : ν → DataType) (devices : List DeviceId) (e : Expr ν)
    (result : Option String) : Task Session (List (Key × CompiledKernel)) := do
  if devices.isEmpty then return []
  let (f, type) ← orFault .expr (kernelRequest typeOf e result)
  kernelsFor devices f type

/-- Whether the kernel for an expression on a device is there already. -/
def hasKernel {ν : Type} (s : Session) (typeOf : ν → DataType) (device : DeviceId) (e : Expr ν)
    (result : Option String) : Except ExprFault Bool := do
  let (f, type) ← kernelRequest typeOf e result
  return (s.cache.find? (s.hardware device).context (f.kernelShape type)).isSome

end Session

end DistributedVector
