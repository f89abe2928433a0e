import DistributedVector.Partition.Basic
import DistributedVector.Task

/-!
# Partitions by throughput

Devices get shares in proportion to their throughput. The throughput of a device is measured when
it is first needed and kept; a single device takes everything and is not measured. What a
measurement does is left open here.

## Main definitions

* `Weights`, `weigh` — the measured throughputs, and looking one up
* `partitionByPerformance`
-/

namespace DistributedVector

/-- The throughputs measured so far. -/
abbrev Weights := List (DeviceId × Scalar)

variable {σ : Type}

/-- Runs a task beside the throughputs. -/
def besideWeights {α : Type} (t : Task σ α) : Task (Weights × σ) α :=
  t.zoom Prod.snd fun s p => (p.1, s)

/-- The throughput of a device, measured unless it is known. -/
def weigh (measure : DeviceId → Task σ Scalar) (d : DeviceId) : Task (Weights × σ) Scalar := do
  match (← get).1.lookup d with
  | some w => return w
  | none =>
    let w ← besideWeights (measure d)
    modify fun p => (p.1 ++ [(d, w)], p.2)
    return w

/-- The throughputs of devices, in order. -/
def weighAll (measure : DeviceId → Task σ Scalar) : List DeviceId → Task (Weights × σ) (List Scalar)
  | [] => return []
  | d :: rest => do
    let w ← weigh measure d
    return w :: (← weighAll measure rest)

/-- Shares of `n` elements in proportion to throughput. -/
def partitionByPerformance (measure : DeviceId → Task σ Scalar) (n : Int) :
    List DeviceId → Task (Weights × σ) (List Int)
  | [_] => return [0, n]
  | devices => do
    let weights ← weighAll measure devices
    orFault .partition (partitionByWeights n weights partitionAlignment)

end DistributedVector
