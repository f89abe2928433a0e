import DistributedVector.Vector.Create
import DistributedVector.Vector.Launch

/-!
# Measuring throughput

The throughput of a device is measured by adding two large vectors on it. Work is timed by running
it a few times unobserved and then as often as is averaged over.

## Main definitions

* `profile` — the average time of a task
* `Session.measure`, `Session.weight` — the throughput of a device
* `Session.performance`, `Session.partition` — partitions of a session
-/

namespace DistributedVector

/-- Runs a task a number of times. -/
def repeated {σ : Type} (run : Task σ Unit) : Nat → Task σ Unit
  | 0 => return ()
  | n + 1 => do
    run
    repeated run n

/-- The average of a time in seconds over a number of runs, in milliseconds. -/
def averageMs (seconds : Float) (iterations : Int) : Except Fault Float :=
  if iterations = 0 then .error .noIterations
  else .ok (seconds / Float.ofInt iterations * 1000)

/-- The average time in milliseconds of a task over `iterations` runs, after `warmup` runs that do
not count. -/
def profile {σ : Type} (run : Task σ Unit) (warmup iterations : Int) : Task σ Float := do
  repeated run warmup.toNat
  let start ← Task.perform (Program.ask .clock)
  repeated run iterations.toNat
  let stop ← Task.perform (Program.ask .clock)
  Task.ofExcept (averageMs (stop - start) iterations)

/-- How many elements are added to measure a device. -/
def benchmarkSize : Nat := 1024 * 1024

/-- The throughput that a time in milliseconds stands for. -/
def throughput (ms : Float) : Float := 1000 / (if ms < 1e-6 then 1e-6 else ms)

namespace Session

/-- A partition for a measurement, which concerns a single device. -/
def partitionAlone : Int → List DeviceId → Task Session (List Int) :=
  partitionWith fun n _ => return [0, n]

/-- The sum of two vectors. -/
def sumOf (a b : Descriptor) : Formula Descriptor :=
  .binary BinaryOp.add.tag (.vector a) (.vector b)

/-- Adds two vectors into a third and waits for the device. -/
def addOnce (device : DeviceId) (a b c : Descriptor) : Task Session Unit := do
  let f := sumOf b c
  let kernels ← kernelsFor a.devices (f.map fun v => .element v.type) (some (.element a.type))
  let session ← get
  let _ ← Task.runOn a (Vector.dispatch session kernels f)
  issue (Program.ask (.synchronize device))

/-- Measures the throughput of a device: after one run to compile the kernel, the time of one
addition. -/
def measure (owner : SessionId) (device : DeviceId) : Task Session Scalar := do
  let request : VectorRequest :=
    ⟨[device], benchmarkSize, none, .unspecified, .readWrite, owner, none⟩
  let a ← Vector.create partitionAlone request
  let b ← Vector.create partitionAlone request
  let c ← Vector.create partitionAlone request
  let ms ← profile (addOnce device a b c) 1 1
  let w := throughput ms
  report (.weighed ((← get).hardware device).name w)
  return .float w

/-- The throughput of a device, measured unless it is known. -/
def weight (owner : SessionId) (device : DeviceId) : Task Session Scalar :=
  onWeights (weigh (measure owner) device)

/-- A partition by throughput, whatever strategy is in force. -/
def performance (owner : SessionId) (n : Int) (devices : List DeviceId) :
    Task Session (List Int) :=
  onWeights (partitionByPerformance (measure owner) n devices)

/-- A partition by the strategy in force. -/
def partition (owner : SessionId) : Int → List DeviceId → Task Session (List Int) :=
  partitionWith (performance owner)

end Session

end DistributedVector
