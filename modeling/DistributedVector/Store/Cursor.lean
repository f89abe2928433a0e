import DistributedVector.Store.Element

/-!
# Positions and copies

A position in a vector knows the device that owns it; moving forward step by step never goes back to
an earlier device. A position on the host is a number beside a collection. Whole collections are
copied between the host and vectors, and ranges between a collection of the host and a vector.

## Main definitions

* `VectorCursor`, `HostCursor`, `Cursor` — positions
* `Collection.length`, `Collection.slice` — the length and the parts of a collection
* `Cursor.diff`, `Cursor.same`, `Cursor.before`, `Store.shift` — arithmetic of positions
* `Store.advance`, `Store.deref`, `Store.iterate` — moving forward, and the elements on the way
* `Store.copy`, `Store.copyRange` — copies
-/

namespace DistributedVector

/-- A position in a vector. -/
structure VectorCursor where
  vector : VectorId
  position : Int
  /-- the number of the shard that owns the position -/
  shard : Nat
  deriving DecidableEq, Repr

/-- The identity of a collection of the host. -/
abbrev CollectionId := Nat

/-- A position in a collection of the host. -/
structure HostCursor where
  id : CollectionId
  collection : Collection
  position : Int

/-- A position in a vector or in a collection of the host. -/
inductive Cursor
  | vector (c : VectorCursor)
  | host (c : HostCursor)

/-- The shard that owns a position; positions outside belong to the first or the last shard. -/
def Descriptor.shardAt (d : Descriptor) (position : Int) : Nat :=
  min (d.boundariesUpTo position - 1) (d.shards.length - 1)

/-- Moves to a later shard as long as the position lies behind a shard that is not the last. The
boundaries given are those behind `shard` and later ones. -/
def advanceShard (position : Int) (last shard : Nat) : List Nat → Nat
  | [] => shard
  | b :: rest =>
    if shard < last ∧ (b : Int) ≤ position then advanceShard position last (shard + 1) rest
    else shard

/-- Moves one step forward. -/
def VectorCursor.advance (c : VectorCursor) (d : Descriptor) : VectorCursor :=
  let position := c.position + 1
  let shard := advanceShard position (d.shards.length - 1) c.shard (d.boundaries.drop (c.shard + 1))
  { c with position, shard }

namespace Cursor

/-- Whether the position is in a vector. -/
def isVector : Cursor → Bool
  | vector _ => true
  | host _ => false

/-- The number of the position. -/
def position : Cursor → Int
  | vector c => c.position
  | host c => c.position

/-- The position in a vector, if it is one. -/
def vector? : Cursor → Except CopyFault VectorCursor
  | vector c => .ok c
  | host _ => .error .noVectorPosition

/-- How far the first position is behind the second. -/
def diff : Cursor → Cursor → Except CopyFault Int
  | vector a, vector b => .ok (a.position - b.position)
  | host a, host b => .ok (a.position - b.position)
  | _, _ => .error .incomparable

/-- Whether two positions are the same position of the same collection. -/
def same : Cursor → Cursor → Bool
  | vector a, vector b => a.vector = b.vector && a.position = b.position
  | host a, host b => a.id = b.id && a.position = b.position
  | _, _ => false

/-- Whether a position in a vector comes before another position, by their numbers. Positions on the
host have no order. -/
def before : Cursor → Cursor → Except CopyFault Bool
  | vector a, b => .ok (a.position < b.position)
  | host _, _ => .error .incomparable

end Cursor

/-- The entries of a list in a slice. -/
def sliceList {α : Type} (xs : List α) (start stop : Int) : List α :=
  let first := Slice.clamp xs.length 0 xs.length start
  let last := Slice.clamp xs.length 0 xs.length stop
  (xs.drop first.toNat).take (last - first).toNat

namespace Collection

/-- The number of rows of a collection. -/
def length : Collection → Task Store Nat
  | array view => orFault .host view.length
  | list values => return values.length
  | vector v => do return (← Store.vector v).size

/-- The rows of a collection in a slice. Those of a vector are read into a new array. -/
def slice (start stop : Int) : Collection → Task Store Collection
  | array view => do return array (← orFault .host (view.slice start stop))
  | list values => return list (sliceList values start stop)
  | vector v => do
    let b ← orFault .vector ((← Store.vector v).range ⟨some start, some stop, none⟩)
    return array (← Store.onVector v (Vector.read b.start (max (b.stop - b.start) 0) .fresh true))

/-- What a read finds in a collection as its target. -/
def target : Collection → Vector.ReadTarget
  | array view => .array view
  | list _ | vector _ => .unsuitable

end Collection

namespace Store

/-- The text of a position in reports. -/
def renderCursor : Cursor → Task Store String
  | .vector c =>
    return "VectorIterator(pos=" ++ toString c.position ++ ", device=" ++ toString c.shard ++ ")"
  | .host c => do
    let length ← c.collection.length
    return "HostIterator(pos=" ++ toString c.position ++ ", size=" ++ toString length ++ ")"

/-- A position in a vector. -/
def cursorAt (v : VectorId) (position : Int) : Task Store VectorCursor := do
  return ⟨v, position, (← vector v).shardAt position⟩

/-- The position some elements further. -/
def shift (c : Cursor) (offset : Int) : Task Store Cursor := do
  match c with
  | .vector c => return .vector (← cursorAt c.vector (c.position + offset))
  | .host c => return .host { c with position := c.position + offset }

/-- Moves a position in a vector forward, one step after the other. -/
def advanceBy : Nat → VectorCursor → Task Store VectorCursor
  | 0, c => return c
  | n + 1, c => do advanceBy n (c.advance (← vector c.vector))

/-- Moves a position forward, which has to be one in a vector. -/
def advance (n : Nat) (c : Cursor) : Task Store Cursor := do
  return .vector (← advanceBy n (← orFault .copy c.vector?))

/-- The element at a position, which has to be one in a vector. -/
def deref (c : Cursor) : Task Store ElementRef := do
  let c ← orFault .copy c.vector?
  match (← vector c.vector).boundaries[c.shard]? with
  | some start => return ⟨c.vector, c.shard, c.position - start⟩
  | none => throw (.vector .noSuchDevice)

/-- The elements from a position up to another one, each read at its position before moving forward;
`none` if more than `limit` elements would have to be read. -/
def readUpTo (stop : VectorCursor) : Nat → VectorCursor → Task Store (Option (List Scalar))
  | 0, c => return if (Cursor.vector c).same (.vector stop) then some [] else none
  | limit + 1, c => do
    if (Cursor.vector c).same (.vector stop) then return some []
    let x ← readElement (← deref (.vector c))
    let rest ← readUpTo stop limit (c.advance (← vector c.vector))
    return rest.map (x :: ·)

/-- The elements of a vector, read at a position that moves from the first one to the end. -/
def iterate (limit : Nat) (v : VectorId) : Task Store (Option (List Scalar)) := do
  let first ← cursorAt v 0
  let stop ← cursorAt v (← vector v).size
  readUpTo stop limit first

/-- Copies a whole collection into another one of the same size; one of them has to be a vector. -/
def copy (source target : Collection) (blocking : Bool) : Task Store Unit := do
  match source, target with
  | .vector v, .vector w => assign w (.vector v)
  | source, .vector w =>
    let data ← gather source
    let size := (← vector w).size
    unless data.values.size = size do throw (.copy (.sourceSize data.values.size size))
    onVector w (Vector.write 0 size data blocking)
  | .vector v, target =>
    let size := (← vector v).size
    match target with
    | .array view =>
      unless view.size = size do throw (.copy (.destination size))
      let _ ← onVector v (Vector.read 0 size (.array view) blocking)
    | _ => throw (.copy (.destination size))
  | _, _ => throw (.copy .noVector)

/-- Copies the range between two positions to a third one and returns the position behind the
copy. -/
def copyRange (first last result : Cursor) (blocking : Bool) : Task Store Cursor := do
  if first.isVector ≠ last.isVector then throw (.copy .mixedRange)
  if first.isVector = result.isVector then throw (.copy .sameSide)
  let count ← orFault .copy (last.diff first)
  if count < 0 then throw (.copy .reversed)
  match first, result with
  | .vector c, .host h =>
    if (← h.collection.length) < h.position + count then throw (.copy .hostTooShort)
    let goal ← h.collection.slice h.position (h.position + count)
    let _ ← onVector c.vector (Vector.read c.position count goal.target blocking)
  | .host h, .vector c =>
    let rows ← h.collection.slice h.position (h.position + count)
    write c.vector c.position count rows blocking
  | _, _ => throw (.copy .sameSide)
  shift result count

end Store

end DistributedVector
