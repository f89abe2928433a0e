import DistributedVector.Expr.Operand
import DistributedVector.Session.Throughput

/-!
# Stores

A store holds vectors and sessions by number. Operations on one vector or session run inside it.
Numbers come from collections: host arrays, lists of the host, or other vectors, whose elements are
then read one by one.

## Main definitions

* `Store`, `Store.onVector`, `Store.onSession`
* `Collection`, `Store.gather` — host data from wherever it comes
* `Store.make`, `Store.construct` — new vectors; `Store.makeBy`, `Store.constructBy` leave open how
  sessions split elements
* `Store.write` — a transfer from any collection
-/

namespace DistributedVector

/-- Vectors and sessions by number. -/
structure Store where
  vectors : Array Descriptor
  sessions : Array Session

/-- A collection of numbers. -/
inductive Collection
  /-- a host array -/
  | array (view : HostView)
  /-- a list of the host -/
  | list (values : List Scalar)
  | vector (v : VectorId)

/-- How many elements a vector is asked to have. -/
inductive Extent
  | count (n : Int)
  | data (source : Collection)

/-- What a vector is to be made of. -/
structure Blueprint where
  devices : List DeviceId
  extent : Extent
  /-- host data beside a number of elements -/
  host : Option Collection
  type : TypeRequest
  access : Access
  session : SessionId
  partition : Option (List Int)

/-- How sessions split elements over devices. -/
abbrev Splitting := SessionId → Int → List DeviceId → Task Session (List Int)

namespace Store

/-- A vector of the store. -/
def vector (v : VectorId) : Task Store Descriptor := do
  match (← get).vectors[v]? with
  | some d => return d
  | none => throw (.vector .unknownVector)

/-- Replaces a vector. -/
def setVector (v : VectorId) (d : Descriptor) : Task Store Unit :=
  modify fun s => { s with vectors := s.vectors.setIfInBounds v d }

/-- A session of the store. -/
def session (k : SessionId) : Task Store Session := do
  match (← get).sessions[k]? with
  | some s => return s
  | none => throw (.vector .unknownSession)

/-- A task on one vector. -/
def onVector {α : Type} (v : VectorId) (t : Task Descriptor α) : Task Store α := do
  let d ← vector v
  t.zoom (fun _ => d) fun d s => { s with vectors := s.vectors.setIfInBounds v d }

/-- A task on one session. -/
def onSession {α : Type} (k : SessionId) (t : Task Session α) : Task Store α := do
  let current ← session k
  t.zoom (fun _ => current) fun current s =>
    { s with sessions := s.sessions.setIfInBounds k current }

/-- The shard that owns a position of the vector, counting boundaries. -/
def ownerOf (d : Descriptor) (position : Nat) : Nat := d.boundariesUpTo position - 1

/-- Reads the elements at the given positions one by one. -/
def readEach (d : Descriptor) : List Nat → Task Descriptor (List Scalar)
  | [] => return []
  | i :: rest => do
    let owner := ownerOf d i
    let x ← Vector.readElement owner ((i : Int) - d.starts.getD owner 0)
    return x :: (← readEach d rest)

/-- The elements of a vector in order, read one by one. -/
def elements (v : VectorId) : Task Store (List Scalar) := do
  let d ← vector v
  onVector v (readEach d (List.range d.size))

/-- Host data from wherever it comes. The elements of an empty vector count as doubles. -/
def gather : Collection → Task Store HostData
  | .array view => Vector.contents view
  | .list values => return .ofList values
  | .vector v => do
    let values ← elements v
    let d ← vector v
    return ⟨.element (if values.isEmpty then .float64 else d.type), [values.length], values.toArray⟩

/-- The number of elements and the host data that a blueprint stands for. -/
def resolveExtent (b : Blueprint) : Task Store (Int × Option HostData) := do
  match b.extent with
  | .data source =>
    let data ← gather source
    unless data.shape.length = 1 do throw (.vector (.rank data.shape))
    return (data.values.size, some data)
  | .count n =>
    if n < 0 then throw (.vector (.negativeSize n))
    match b.host with
    | none => return (n, none)
    | some source => return (n, some (← gather source))

/-- Makes a vector without keeping it, given how sessions split elements. -/
def makeBy (split : Splitting) (b : Blueprint) : Task Store Descriptor := do
  if b.devices.isEmpty then throw (.vector .noDevices)
  let (size, host) ← resolveExtent b
  onSession b.session (Vector.create (split b.session)
    ⟨b.devices, size, host, b.type, b.access, b.session, b.partition⟩)

/-- Makes a vector without keeping it. -/
def make (b : Blueprint) : Task Store Descriptor := makeBy Session.partition b

/-- Makes a vector and keeps it, given how sessions split elements. -/
def constructBy (split : Splitting) (b : Blueprint) : Task Store VectorId := do
  let d ← makeBy split b
  let v := (← get).vectors.size
  modify fun s => { s with vectors := s.vectors.push d }
  return v

/-- Makes a vector and keeps it. -/
def construct (b : Blueprint) : Task Store VectorId := constructBy Session.partition b

/-- Writes host data to a range. The range is checked before the host data is looked at. -/
def write (v : VectorId) (offset count : Int) (source : Collection) (blocking : Bool) :
    Task Store Unit := do
  if count = 0 then return
  onVector v (Vector.checkRange offset count)
  let data ← gather source
  onVector v (Vector.write offset count data blocking)

end Store

end DistributedVector
