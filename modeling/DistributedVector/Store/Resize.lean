import DistributedVector.Store.Assign

/-!
# Reallocation

Vectors exchange their descriptions, take the layout and the elements of another vector, start
afresh with another size, or change size and keep their first elements. Kept elements are copied on
their device where the device stays the same, and go through the host otherwise, one transfer for
each run.

## Main definitions

* `Store.swap`
* `Store.resizeLike`, `Store.resizeTo` — reallocation; `Store.resizeToBy` leaves open how sessions
  split elements, and so does `Store.resizePreservingBy`
* `KeptPiece`, `keptPieces`, `gaps` — which elements stay on their device, and which move
* `Store.resizePreserving` — reallocation that keeps elements
-/

namespace DistributedVector

/-- Elements that stay on their device when boundaries change. -/
structure KeptPiece where
  /-- the number of the shard, before and after -/
  shard : Nat
  device : DeviceId
  source : Option BufferId
  target : Option BufferId
  /-- the first element -/
  start : Nat
  /-- behind the last element -/
  stop : Nat
  /-- the first element of the shard before -/
  oldStart : Nat
  /-- the first element of the shard after -/
  newStart : Nat

/-- The elements below `keep` that stay on their device, for shards numbered from `index`. -/
def keptPieces (keep : Nat) : Nat → Nat → Nat → List (Shard × Shard) → List KeptPiece
  | _, _, _, [] => []
  | index, oldStart, newStart, (old, new) :: rest =>
    let start := max oldStart newStart
    let stop := min (min (oldStart + old.length) (newStart + new.length)) keep
    let others := keptPieces keep (index + 1) (oldStart + old.length) (newStart + new.length) rest
    if start < stop then
      ⟨index, old.device, old.buffer, new.buffer, start, stop, oldStart, newStart⟩ :: others
    else others

/-- The runs of `[position, keep)` that no piece covers, as first elements and ends. -/
def gaps (keep position : Nat) : List KeptPiece → List (Nat × Nat)
  | [] => if position < keep then [(position, keep)] else []
  | p :: rest =>
    let others := gaps keep p.stop rest
    if position < p.start then (position, p.start) :: others else others

namespace Vector

/-- Starts copying the pieces that stay on their device. -/
def copyPieces : List KeptPiece → Task Descriptor Unit
  | [] => return ()
  | p :: rest => do
    let e ← issue (Program.ask (.copy p.device p.source p.target (p.stop - p.start)
      (p.start - p.oldStart : Nat) (p.start - p.newStart : Nat)))
    modify (·.setEvent p.shard e)
    copyPieces rest

/-- Waits for the last commands on shards. -/
def waitAll {σ : Type} : List Shard → Task σ Unit
  | [] => return ()
  | s :: rest => do
    match s.event with
    | some e => issue (Program.ask (.wait s.device e))
    | none => pure ()
    waitAll rest

end Vector

namespace Store

/-- Exchanges the descriptions of two vectors; no elements move. -/
def swap (v w : VectorId) : Task Store Unit := do
  let a ← vector v
  let b ← vector w
  setVector v b
  setVector w a

/-- Reallocates a vector like another one and takes its elements. -/
def resizeLike (v w : VectorId) (access : Access) : Task Store Unit := do
  if v = w then return
  let d ← vector v
  let other ← vector w
  let fresh ← make ⟨other.devices, .count other.size, none, .exact d.type, access, d.session,
    some (other.boundaries.map Int.ofNat)⟩
  setVector v fresh
  assign v (.vector w)

/-- Reallocates a vector for a number of elements or for host data, given how sessions split
elements. What the vector held is lost. -/
def resizeToBy (split : Splitting) (v : VectorId) (devices : List DeviceId)
    (extent : Option Extent) (host : Option Collection) (access : Access) : Task Store Unit := do
  match extent with
  | none => throw (.vector .noSize)
  | some extent =>
    let d ← vector v
    let fresh ← makeBy split ⟨devices, extent, host, .exact d.type, access, d.session, none⟩
    setVector v fresh

/-- Reallocates a vector for a number of elements or for host data; its elements are lost. -/
def resizeTo (v : VectorId) (devices : List DeviceId) (extent : Option Extent)
    (host : Option Collection) (access : Access) : Task Store Unit :=
  resizeToBy Session.partition v devices extent host access

/-- Moves runs of elements of a vector through the host into a new one. -/
def moveRuns (v : VectorId) : Descriptor → List (Nat × Nat) → Task Store Descriptor
  | fresh, [] => return fresh
  | fresh, (start, stop) :: rest => do
    let count : Int := (stop : Int) - start
    let data ← onVector v (Vector.readRange start count)
    let (_, fresh) ← Task.runOn fresh (Vector.write start count data true)
    moveRuns v fresh rest

/-- Reallocates a vector on the same devices and keeps its first elements, given how sessions split
elements. -/
def resizePreservingBy (split : Splitting) (v : VectorId) (size : Int) : Task Store Unit := do
  let d ← vector v
  let fresh ← makeBy split ⟨d.devices, .count size, none, .exact d.type, d.access, d.session, none⟩
  let keep := min d.size fresh.size
  let kept := keptPieces keep 0 0 0 (d.shards.zip fresh.shards)
  let (_, fresh) ← Task.runOn fresh (Vector.copyPieces kept)
  Vector.waitAll fresh.shards
  let fresh ← moveRuns v fresh (gaps keep 0 kept)
  setVector v fresh

/-- Reallocates a vector on the same devices and keeps its first elements. -/
def resizePreserving (v : VectorId) (size : Int) : Task Store Unit :=
  resizePreservingBy Session.partition v size

end Store

end DistributedVector
