import DistributedVector.Element.DataType
import DistributedVector.Partition.Basic

/-!
# Faults of vectors

Every reason for which an operation on vectors, on positions in them or on host arrays is refused.

## Main definitions

* `VectorFault` — refusals by vectors
* `CopyFault` — refusals of copies between host arrays and vectors
* `HostFault` — refusals by host arrays
-/

namespace DistributedVector

/-- Lengths along the axes of a host array, in parentheses. -/
def renderShape : List Nat → String
  | [] => "()"
  | [n] => "(" ++ toString n ++ ",)"
  | shape => "(" ++ ", ".intercalate (shape.map toString) ++ ")"

/-- The layout of a vector as messages give it: boundaries and number of devices. -/
structure LayoutSummary where
  boundaries : List Nat
  devices : Nat
  deriving DecidableEq, Repr

/-- The text of a layout in messages. -/
def LayoutSummary.render (l : LayoutSummary) : String :=
  renderBoundaries (l.boundaries.map Int.ofNat) ++ " on " ++ toString l.devices ++ " device(s)"

/-- Why a vector refuses an operation. -/
inductive VectorFault
  /-- a vector on no device -/
  | noDevices
  /-- host data that is not one-dimensional -/
  | rank (shape : List Nat)
  /-- a negative number of elements -/
  | negativeSize (size : Int)
  /-- host data for fewer elements than the vector is to have -/
  | dataTooShort (has : Nat) (needs : Int)
  /-- an index before the first element or behind the last one -/
  | index (size : Nat)
  /-- a slice with a step of zero -/
  | zeroStep
  /-- a slice that leaves elements out -/
  | step
  /-- an expression assigned to a part of a vector -/
  | partialAssignment
  /-- a range that leaves the vector -/
  | range (first last : Int) (size : Nat)
  /-- host data for fewer elements than a transfer writes -/
  | sourceTooShort (has : Nat) (needs : Int)
  /-- a host array that cannot receive elements of the given type -/
  | unsuitableTarget (type : ElementType)
  /-- a host array for fewer elements than a transfer reads -/
  | targetTooShort (has : Nat) (needs : Int)
  /-- a transfer of a negative number of elements -/
  | negativeCount
  /-- vectors that are laid out differently -/
  | layout (mine theirs : LayoutSummary)
  /-- a linear operator that does not fit its vectors -/
  | operatorShape (rows cols : Int) (source target : Nat)
  /-- an operand with fewer elements than a linear operator needs -/
  | operandTooShort
  /-- a new size is missing -/
  | noSize
  /-- a device that the vector does not have, or no longer has -/
  | noSuchDevice
  /-- a kernel asked for on no device -/
  | noContext
  /-- a vector that the store does not hold -/
  | unknownVector
  /-- a session that the store does not hold -/
  | unknownSession
  deriving DecidableEq, Repr

namespace VectorFault

/-- The wording of a refusal, where it has one of its own. -/
def message : VectorFault → Option String
  | noDevices => some "A vector needs at least one device"
  | rank shape => some ("Host data must be 1-D, got shape " ++ renderShape shape)
  | negativeSize n => some ("Vector size must be non-negative, got " ++ toString n)
  | dataTooShort has needs =>
    some ("Host data has " ++ toString has ++ " elements, vector needs " ++ toString needs)
  | index size => some ("Index out of range for vector of size " ++ toString size)
  | step => some "Only contiguous slices are supported"
  | partialAssignment => some "Expressions can only be assigned to the whole vector"
  | range first last size =>
    some ("Range [" ++ toString first ++ ", " ++ toString last ++ ") outside vector of size " ++
      toString size)
  | sourceTooShort has needs =>
    some ("Host data has " ++ toString has ++ " elements, transfer needs " ++ toString needs)
  | unsuitableTarget t =>
    some ("read_data needs a contiguous writeable " ++ t.name ++ " numpy array")
  | targetTooShort has needs =>
    some ("Host array has " ++ toString has ++ " elements, transfer needs " ++ toString needs)
  | layout mine theirs =>
    some ("Vector layouts differ: " ++ mine.render ++ " vs " ++ theirs.render)
  | operatorShape rows cols source target =>
    some ("Operator of shape (" ++ toString rows ++ ", " ++ toString cols ++
      ") cannot map a vector of size " ++ toString source ++ " into a vector of size " ++
      toString target)
  | noSize => some "resize() needs a size or host data"
  | zeroStep | negativeCount | operandTooShort | noSuchDevice | noContext | unknownVector |
    unknownSession => none

end VectorFault

/-- Why a copy between a host array and a vector is refused. -/
inductive CopyFault
  /-- host data of another size than the vector -/
  | sourceSize (host vector : Nat)
  /-- a destination that is no host array of the vector's size -/
  | destination (size : Nat)
  /-- a copy without any vector -/
  | noVector
  /-- ends of a range in a vector and in a host array -/
  | mixedRange
  /-- a range of host arrays only, or of vectors only -/
  | sameSide
  /-- a range that ends before it begins -/
  | reversed
  /-- a host array that ends before the range does -/
  | hostTooShort
  /-- positions that cannot be subtracted or compared -/
  | incomparable
  /-- a position in a host array where one in a vector is needed -/
  | noVectorPosition
  deriving DecidableEq, Repr

namespace CopyFault

/-- The wording of a refusal, where it has one of its own. -/
def message : CopyFault → Option String
  | sourceSize host vector =>
    some ("Cannot copy " ++ toString host ++ " host elements into a vector of size " ++
      toString vector)
  | destination size =>
    some ("Destination must be a numpy array of " ++ toString size ++ " elements")
  | noVector => some "copy() needs a LogicalVector on at least one side"
  | mixedRange => some "first and last must be the same kind of iterator"
  | sameSide => some "copy_range() copies between a host array and a device vector"
  | reversed => some "last precedes first"
  | hostTooShort => some "Host range too short for copy"
  | incomparable | noVectorPosition => none

end CopyFault

/-- Why a host array cannot be made or used. -/
inductive HostFault
  /-- a shape that does not hold the number of elements -/
  | shape
  /-- every element in steps of zero -/
  | zeroStride
  /-- an axis that the array does not have -/
  | axis
  /-- the length of a single number -/
  | noLength
  deriving DecidableEq, Repr

end DistributedVector
