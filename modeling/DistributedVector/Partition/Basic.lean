import DistributedVector.Element.Scalar

/-!
# Partitions

A partition of `n` elements over `d` devices is a list of `d + 1` boundaries that starts at 0, does
not decrease and ends at `n`; device `i` owns the elements from boundary `i` up to boundary `i + 1`.

## Main definitions

* `alignUp` — the next multiple of an alignment
* `validatePartition` — refusal of boundaries that are no partition
* `partitionEqually` — equal aligned chunks
* `partitionByWeights` — aligned shares in proportion to weights
-/

namespace DistributedVector

/-- Why a partition cannot be made or is refused. -/
inductive PartitionFault
  /-- the number of boundaries does not fit the number of devices -/
  | boundaryCount (got expected : Int)
  /-- a boundary is missing altogether -/
  | noBoundary
  /-- the boundaries do not run from 0 to the number of elements -/
  | span (n : Int) (boundaries : List Int)
  /-- a boundary is below the one before it -/
  | decreasing (boundaries : List Int)
  /-- the weights do not sum to a positive value -/
  | noWeight
  /-- an alignment of zero -/
  | noAlignment
  /-- a quotient is no number -/
  | notANumber
  /-- a quotient or a number of elements is too large -/
  | overflow
  /-- no weight is known for a device -/
  | unknownDevice

/-- Integers in brackets, separated by a comma and a blank. -/
def renderBoundaries (boundaries : List Int) : String :=
  "[" ++ ", ".intercalate (boundaries.map toString) ++ "]"

/-- The wording of a fault, where it has one of its own. -/
def PartitionFault.message : PartitionFault → Option String
  | boundaryCount got expected =>
    some ("Partition has " ++ toString got ++ " boundaries, expected " ++ toString expected)
  | span n part =>
    some ("Partition must span [0, " ++ toString n ++ "), got " ++ renderBoundaries part)
  | decreasing part =>
    some ("Partition boundaries must be non-decreasing, got " ++ renderBoundaries part)
  | noWeight => some "Partition weights must sum to a positive value"
  | noBoundary | noAlignment | notANumber | overflow | unknownDevice => none

/-- The alignment of boundaries unless another is given. -/
def partitionAlignment : Int := 16

/-- The least multiple of a positive `m` that is at least `n`; for a negative `m` the remainder has
the sign of `m`. -/
def alignUp (n m : Int) : Int :=
  if n.fmod m = 0 then n else n - n.fmod m + m

/-- `alignUp`, which needs an alignment other than zero. -/
def alignUp? (n m : Int) : Except PartitionFault Int :=
  if m = 0 then .error .noAlignment else .ok (alignUp n m)

/-- Whether each number is at least the one before it. -/
def nondecreasing : List Int → Bool
  | a :: b :: rest => a ≤ b && nondecreasing (b :: rest)
  | _ => true

/-- Refuses boundaries that are no partition of `n` elements over `devices` devices. -/
def validatePartition (part : List Int) (n devices : Int) : Except PartitionFault Unit :=
  if (part.length : Int) ≠ devices + 1 then .error (.boundaryCount part.length (devices + 1))
  else
    match part.head?, part.getLast? with
    | some first, some last =>
      if first ≠ 0 ∨ last ≠ n then .error (.span n part)
      else if nondecreasing part then .ok ()
      else .error (.decreasing part)
    | _, _ => .error .noBoundary

/-- The boundaries after `bound`, each `chunk` further but at most `n`. -/
def chunksFrom (n chunk bound : Int) : Nat → List Int
  | 0 => []
  | count + 1 =>
    let next := min n (bound + chunk)
    next :: chunksFrom n chunk next count

/-- Equal aligned chunks; only the last nonempty one may be shorter. -/
def partitionEqually (n : Int) (devices : Nat) : List Int :=
  if 1 < devices then
    0 :: chunksFrom n (alignUp ((n + devices - 1).fdiv devices) partitionAlignment) 0 devices
  else List.replicate devices 0 ++ [n]

/-- The integer part of a double. -/
def integerPart (x : Float) : Except PartitionFault Int :=
  match Binary64.truncate? x with
  | some n => .ok n
  | none => .error (if x.isNaN then .notANumber else .overflow)

/-- The sum of weights, from `sum` on. -/
def totalWeight (sum : Scalar) : List Scalar → Except NumberFault Float
  | [] => sum.toDouble
  | w :: rest => do totalWeight (← sum.add w) rest

/-- The sums of the first weights as doubles, from `sum` on: one for each weight, up to one that is
too large. -/
def runningSums (sum : Float) : List Scalar → List (Except NumberFault Float)
  | [] => []
  | w :: rest =>
    match w.toDouble with
    | .ok x => .ok (sum + x) :: runningSums (sum + x) rest
    | .error f => [.error f]

/-- The interior boundaries for given shares, behind `bound`: each share is aligned, is at least the
boundary before it and at most `n`. -/
def boundariesFrom (n alignment bound : Int) :
    List (Except PartitionFault Int) → Except PartitionFault (List Int)
  | [] => .ok []
  | share :: rest => do
    let boundary ← alignUp? (← share) alignment
    let next := min n (max bound boundary)
    return next :: (← boundariesFrom n alignment next rest)

/-- The proportional position of a partial sum of weights, rounded toward zero. -/
def weightedShare (n : Int) (total sum : Float) : Except PartitionFault Int :=
  let count := Float.ofInt n
  if count.isInf then .error .overflow else integerPart (count * sum / total)

/-- A number that is too large for its purpose. -/
def tooLarge {α : Type} (r : Except NumberFault α) : Except PartitionFault α :=
  r.mapError fun _ => .overflow

/-- Shares of `n` elements in proportion to weights, interior boundaries aligned. Weights that are
integers are added up exactly before shares are computed with doubles. -/
def partitionByWeights (n : Int) (weights : List Scalar) (alignment : Int) :
    Except PartitionFault (List Int) := do
  let total ← tooLarge (totalWeight (.int 0) weights)
  if total ≤ 0 then throw .noWeight
  let shares := (runningSums 0 weights.dropLast).map fun sum => do
    weightedShare n total (← tooLarge sum)
  return 0 :: (← boundariesFrom n alignment 0 shares) ++ [n]

end DistributedVector
