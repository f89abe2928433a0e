import DistributedVector.Device.Basic
import DistributedVector.Vector.Fault

/-!
# Vectors

A vector is spread over a list of devices. Each device has a shard: consecutive elements in a buffer
of their own, and the event of the last command on them. A device without elements has no buffer.

## Main definitions

* `Shard`, `Descriptor` — a vector
* `Descriptor.boundaries`, `Descriptor.layout`
* `Piece`, `Descriptor.pieces` — the parts of a range on the devices that own them
-/

namespace DistributedVector

/-- The number of a vector. -/
abbrev VectorId := Nat

/-- The number of a session. -/
abbrev SessionId := Nat

/-- The elements of a vector on one device. -/
structure Shard where
  device : DeviceId
  length : Nat
  buffer : Option BufferId
  /-- the last command on the elements, if there has been one -/
  event : Option Event
  deriving DecidableEq, Repr

/-- A vector. -/
structure Descriptor where
  session : SessionId
  type : ElementType
  access : Access
  shards : List Shard

/-- The ends of consecutive ranges of the given lengths, from `start` on. -/
def boundariesOf (start : Nat) : List Nat → List Nat
  | [] => [start]
  | n :: rest => start :: boundariesOf (start + n) rest

/-- The sum of lengths. -/
def total : List Nat → Nat
  | [] => 0
  | n :: rest => n + total rest

/-- The lengths between boundaries. -/
def lengthsOf : List Int → List Nat
  | a :: b :: rest => (b - a).toNat :: lengthsOf (b :: rest)
  | _ => []

/-- A part of a range on the device that owns it. -/
structure Piece where
  /-- the number of the shard -/
  shard : Nat
  device : DeviceId
  buffer : Option BufferId
  /-- the position in the shard -/
  localOffset : Nat
  /-- the position in the range -/
  rangeOffset : Nat
  count : Nat
  deriving DecidableEq, Repr

/-- The parts of the range from `offset` on, of `count` elements, on shards that are numbered from
`index` and hold the elements from `start` on. -/
def piecesFrom (offset count : Nat) : Nat → Nat → List Shard → List Piece
  | _, _, [] => []
  | index, start, s :: rest =>
    let first := max offset start
    let last := min (offset + count) (start + s.length)
    let others := piecesFrom offset count (index + 1) (start + s.length) rest
    if first < last then
      ⟨index, s.device, s.buffer, first - start, first - offset, last - first⟩ :: others
    else others

namespace Descriptor

/-- The numbers of elements on the devices. -/
def lengths (d : Descriptor) : List Nat := d.shards.map (·.length)

/-- The number of elements. -/
def size (d : Descriptor) : Nat := total d.lengths

/-- The devices in order. -/
def devices (d : Descriptor) : List DeviceId := d.shards.map (·.device)

/-- The boundaries between shards: one more than there are devices. -/
def boundaries (d : Descriptor) : List Nat := boundariesOf 0 d.lengths

/-- The first element of each shard. -/
def starts (d : Descriptor) : List Nat := d.boundaries.dropLast

/-- The devices with their numbers of elements. -/
def layout (d : Descriptor) : List (DeviceId × Nat) := d.shards.map fun s => (s.device, s.length)

/-- Whether two vectors have the same devices and boundaries. -/
def sameLayout (a b : Descriptor) : Bool := a.layout = b.layout

/-- The layout as messages give it. -/
def summary (d : Descriptor) : LayoutSummary := ⟨d.boundaries, d.shards.length⟩

/-- Refuses a vector that is laid out differently. -/
def checkLayout (mine theirs : Descriptor) : Except VectorFault Unit :=
  if mine.sameLayout theirs then .ok () else .error (.layout mine.summary theirs.summary)

/-- Notes the last command on a shard. -/
def setEvent (d : Descriptor) (shard : Nat) (e : Event) : Descriptor :=
  { d with shards := d.shards.modify shard fun s => { s with event := some e } }

/-- The last command on a shard. -/
def event? (d : Descriptor) (shard : Nat) : Option Event := d.shards[shard]?.bind (·.event)

/-- The buffer of a shard. -/
def buffer? (d : Descriptor) (shard : Nat) : Option BufferId := d.shards[shard]?.bind (·.buffer)

/-- The parts of a range on the devices that own them, in device order. -/
def pieces (d : Descriptor) (offset count : Nat) : List Piece :=
  piecesFrom offset count 0 0 d.shards

/-- Refuses a range that leaves the vector. -/
def checkRange (d : Descriptor) (offset count : Int) : Except VectorFault Unit :=
  if offset < 0 ∨ count < 0 ∨ d.size < offset + count then
    .error (.range offset (offset + count) d.size)
  else .ok ()

/-- How many boundaries lie at or before a position. -/
def boundariesUpTo (d : Descriptor) (position : Int) : Nat :=
  d.boundaries.countP fun (b : Nat) => decide ((b : Int) ≤ position)

/-- The text of a vector in reports. -/
def render (d : Descriptor) : String :=
  "LogicalVector(size=" ++ toString d.size ++ ", dtype=" ++ d.type.name ++ ", devices=" ++
    toString d.shards.length ++ ", partition=" ++
    renderBoundaries (d.boundaries.map Int.ofNat) ++ ")"

theorem length_boundariesOf (start : Nat) (ns : List Nat) :
    (boundariesOf start ns).length = ns.length + 1 := by
  induction ns generalizing start with
  | nil => rfl
  | cons n rest ih => simp [boundariesOf, ih]

/-- There is one boundary more than there are devices. -/
theorem length_boundaries (d : Descriptor) : d.boundaries.length = d.shards.length + 1 := by
  simp [boundaries, lengths, length_boundariesOf]

end Descriptor

end DistributedVector
