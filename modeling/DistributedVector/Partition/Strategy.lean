import DistributedVector.Device.Basic
import DistributedVector.Partition.Basic

/-!
# Partition strategies

A strategy splits numbers of elements over devices. Besides equal chunks and shares in proportion
to measured throughput, a strategy can be any rule of the caller, whose answers may differ from one
time to the next.

## Main definitions

* `Strategy`
* `Strategy.weighted`, `Strategy.inTurn` — rules with fixed weights and with fixed answers
-/

namespace DistributedVector

/-- A way to split numbers of elements over devices. -/
inductive Strategy
  /-- equal chunks -/
  | equally
  /-- shares in proportion to measured throughput -/
  | performance
  /-- a rule of the caller, given how often it has been asked before, the number of elements and
  the devices -/
  | custom (rule : Nat → Int → List DeviceId → Except PartitionFault (List Int))

namespace Strategy

/-- The name of a strategy, as reports print it. -/
def name : Strategy → String
  | equally => "equal"
  | performance => "perf"
  | custom _ => "custom"

/-- Shares in proportion to fixed weights. -/
def weighted (weights : List Scalar) (alignment : Int) : Strategy :=
  custom fun _ n _ => partitionByWeights n weights alignment

/-- The given answers one after the other, and then the last one forever. -/
def inTurn (answers : List (List Int)) : Strategy :=
  custom fun asked _ _ =>
    match answers[min asked (answers.length - 1)]? with
    | some part => .ok part
    | none => .error .noBoundary

end Strategy

end DistributedVector
