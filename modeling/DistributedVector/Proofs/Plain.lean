import DistributedVector.Proofs.Transfer
import DistributedVector.Proofs.Value
import DistributedVector.Store.Cursor
import DistributedVector.Store.Resize
import Mathlib.Data.Option.Basic

/-!
# Plain arrays

What the operations on vectors mean if a vector is nothing but a list of elements with a type.
Devices, layouts and transfers do not occur here: writing lays elements over a list, an assignment
evaluates a formula index by index on what the vectors hold before, in one way or another, and a
vector that changes its size keeps its first elements. Where an operation has no meaning, for an
index outside of the list, say, there is no result.

## Main definitions

* `Operation`, `Operation.run` — the operations, and running them on partitioned vectors
* `Answer` — what they return, without host memory
* `Plain`, `Plain.step` — plain arrays, and the operations on them
-/

namespace DistributedVector

/-- An operation on vectors. -/
inductive Operation
  | construct (b : Blueprint)
  | write (v : VectorId) (offset count : Int) (source : Collection) (blocking : Bool)
  | read (v : VectorId) (offset count : Int) (goal : Vector.ReadTarget) (blocking : Bool)
  | get (v : VectorId) (index : Index)
  | set (v : VectorId) (index : Index) (x : HostValue)
  | getSlice (v : VectorId) (s : Slice)
  | setSlice (v : VectorId) (s : Slice) (x : Content)
  | iterate (v : VectorId)
  | copy (source target : Collection) (blocking : Bool)
  | copyRange (first last result : Cursor) (blocking : Bool)
  | assign (v : VectorId) (source : Operand VectorId)
  | update (v : VectorId) (op : BinaryOp) (source : Operand VectorId)
  | resizeLike (v w : VectorId) (access : Access)
  | resizeTo (v : VectorId) (devices : List DeviceId) (extent : Option Extent)
      (host : Option Collection) (access : Access)
  | resizePreserving (v : VectorId) (size : Int)
  | swap (v w : VectorId)

/-- What an operation returns: contents of host arrays instead of the arrays, and positions without
the device that owns them. -/
inductive Answer
  | done
  | vector (v : VectorId)
  | element (x : Scalar)
  | elements (xs : List Scalar)
  | data (d : HostData)
  | position (collection : VectorId ⊕ CollectionId) (position : Int)

/-- A position in a collection. -/
def Cursor.answer : Cursor → Answer
  | vector c => .position (.inl c.vector) c.position
  | host c => .position (.inr c.id) c.position

/-- Runs an operation on the vectors of a store. -/
def Operation.run : Operation → Task Store Answer
  | construct b => do return .vector (← Store.construct b)
  | write v offset count source blocking => do
    Store.write v offset count source blocking
    return .done
  | read v offset count goal blocking => do
    let view ← Store.onVector v (Vector.read offset count goal blocking)
    return .data (← Vector.contents view)
  | get v index => do return .element (← Store.get v index)
  | set v index x => do
    Store.set v index (.operand (.host x))
    return .done
  | getSlice v s => do return .data (← Store.getSlice v s)
  | setSlice v s x => do
    Store.setSlice v s x
    return .done
  | iterate v => do return .elements (← Store.elements v)
  | copy source target blocking => do
    Store.copy source target blocking
    return .done
  | copyRange first last result blocking => do
    return (← Store.copyRange first last result blocking).answer
  | assign v source => do
    Store.assign v source
    return .done
  | update v op source => do
    Store.update v op source
    return .done
  | resizeLike v w access => do
    Store.resizeLike v w access
    return .done
  | resizeTo v devices extent host access => do
    Store.resizeTo v devices extent host access
    return .done
  | resizePreserving v size => do
    Store.resizePreserving v size
    return .done
  | swap v w => do
    Store.swap v w
    return .done

/-- Vectors as types with elements, and the arrays of the host. -/
@[ext] structure Plain where
  vectors : Array (ElementType × List Scalar)
  cell : CellId → Option (Array Scalar)

/-- An entry that is stored again changes nothing. -/
theorem setIfInBounds_eq_self {α : Type} {xs : Array α} {i : Nat} {a : α} (h : xs[i]? = some a) :
    xs.setIfInBounds i a = xs := by
  apply Array.ext_getElem?
  intro j
  rw [Array.getElem?_setIfInBounds]
  split
  next hij =>
    subst hij
    rw [h, if_pos (Array.getElem?_eq_some_iff.mp h).1]
  · rfl

namespace Plain

open DistributedVector.Vector

/-- Replaces a vector. -/
def put (p : Plain) (v : VectorId) (t : ElementType) (xs : List Scalar) : Plain :=
  { p with vectors := p.vectors.setIfInBounds v (t, xs) }

/-- What a view shows of its array. -/
def view (p : Plain) (h : HostView) : Option HostData := do
  let a ← p.cell h.cell
  return ⟨h.type, h.shape, a.extract h.offset (h.offset + h.size)⟩

/-- Host data from wherever it comes. -/
def collect (p : Plain) : Collection → Option HostData
  | .array h => p.view h
  | .list values => some (.ofList values)
  | .vector v => do
    let (t, xs) ← p.vectors[v]?
    return ⟨.element (if xs.isEmpty then .float64 else t), [xs.length], xs.toArray⟩

/-- Writes the first numbers of host data to a range; there have to be enough of them. -/
def write (p : Plain) (v : VectorId) (offset count : Int) (data : HostData) : Option Plain := do
  let (t, xs) ← p.vectors[v]?
  guard (Covers xs.length offset count)
  let values ← (data.elements t count.toNat).toOption
  guard (values.size = count.toNat)
  return p.put v t (overlay offset.toNat values.toList xs)

/-- Reads a range, into new host data or over an array. -/
def read (p : Plain) (v : VectorId) (offset count : Int) : ReadTarget → Option (HostData × Plain)
  | .fresh => do
    let (t, xs) ← p.vectors[v]?
    guard (Covers xs.length offset count)
    return (⟨.element t, [count.toNat], (part offset count xs).toArray⟩, p)
  | .array h => do
    let (_, xs) ← p.vectors[v]?
    guard (Covers xs.length offset count)
    let a ← p.cell h.cell
    let a' := (overlay h.offset (part offset count xs) a.toList).toArray
    let p' := { p with cell := fun c => if c = h.cell then some a' else p.cell c }
    return (← p'.view h, p')
  | .unsuitable => none

/-- The position that an index stands for; negative ones count from the end. -/
def position (length : Nat) (index : Index) : Option Nat := do
  let i ← index.toInt.toOption
  let j := if i < 0 then i + length else i
  if 0 ≤ j ∧ j < length then return j.toNat else none

/-- The elements that an element is set to; an empty list sets nothing. -/
def single (t : ElementType) : HostValue → Option (List Scalar)
  | .emptyList => some []
  | x => do return [← (x.element t).toOption]

/-- Computes a formula into a vector, index by index, from what the vectors hold before. -/
def evaluate (E : Evaluation) (p : Plain) (v : VectorId) (f : Formula VectorId) :
    Option Plain := do
  let (t, xs) ← p.vectors[v]?
  return p.put v t (← E.results t xs.length (p.vectors[·]?) f)

/-- Gives a vector the elements of another one: as they are, if the types agree, and computed
otherwise. A vector that takes its own elements stays as it is. -/
def take (E : Evaluation) (p : Plain) (v w : VectorId) : Option Plain :=
  if v = w then some p
  else do
    let (t, _) ← p.vectors[v]?
    let (t', ys) ← p.vectors[w]?
    if t' = t then return p.put v t ys
    else return p.put v t (← E.results t ys.length (p.vectors[·]?) (.vector w))

/-- Gives a vector the elements of another one, or the values of a formula. -/
def assignFormula (E : Evaluation) (p : Plain) (v : VectorId) :
    Formula VectorId → Option Plain
  | .vector w => p.take E v w
  | f => p.evaluate E v f

/-- Assigns to a vector, unless a product occurs in what is assigned. -/
def assign (E : Evaluation) (p : Plain) (v : VectorId) (source : Operand VectorId) :
    Option Plain := do
  p.assignFormula E v (← (← source.toExpr.toOption).formula?)

/-- The bounds of a contiguous slice. -/
def range (length : Nat) (s : Slice) : Option SliceBounds := do
  let b ← s.bounds length
  if b.step = 1 then return b else none

/-- Writes a content that is no expression to a range. -/
def writeContent (p : Plain) (v : VectorId) (offset count : Int) : Content → Option Plain
  | .data source => do p.write v offset count (← p.collect source)
  | .operand (.host .emptyList) => p.write v offset count (.ofList [])
  | .operand x => do
    let (t, _) ← p.vectors[v]?
    p.write v offset count (.row t #[← (Store.loneElement t x).toOption])

/-- Sets a contiguous slice; an expression or a single value is assigned to the whole vector
only. -/
def setSlice (E : Evaluation) (p : Plain) (v : VectorId) (s : Slice) (x : Content) :
    Option Plain := do
  let (_, xs) ← p.vectors[v]?
  let b ← range xs.length s
  match x, Store.Content.isExpression x with
  | .operand e, true =>
    guard (b.start = 0 ∧ b.stop = xs.length)
    p.assign E v e
  | x, _ =>
    let count := max (b.stop - b.start) 0
    if count = 0 then return p else p.writeContent v b.start count x

/-- Copies a whole collection into another one. -/
def copy (E : Evaluation) (p : Plain) : Collection → Collection → Option Plain
  | .vector v, .vector w => p.assign E w (.vector v)
  | source, .vector w => do
    let (_, ys) ← p.vectors[w]?
    p.write w 0 ys.length (← p.collect source)
  | .vector v, .array h => do
    let (_, xs) ← p.vectors[v]?
    return (← p.read v 0 xs.length (.array h)).2
  | _, _ => none

/-- The rows of a host collection in a slice. -/
def slice (start stop : Int) : Collection → Option Collection
  | .array h => do return .array (← (h.slice start stop).toOption)
  | .list values => some (.list (sliceList values start stop))
  | .vector _ => none

/-- Copies a range between a vector and a host collection; the position behind the copy is
returned. -/
def copyRange (p : Plain) (first last : Cursor) : Cursor → Option (Answer × Plain)
  | .host h => do
    let .vector c := first | none
    let count := last.position - c.position
    let goal ← slice h.position (h.position + count) h.collection
    return (.position (.inr h.id) (h.position + count),
      (← p.read c.vector c.position count goal.target).2)
  | .vector c => do
    let .host h := first | none
    let count := last.position - h.position
    let rows ← slice h.position (h.position + count) h.collection
    let answer := Answer.position (.inl c.vector) (c.position + count)
    if count = 0 then return (answer, p)
    else return (answer, ← p.write c.vector c.position count (← p.collect rows))

/-- The number of elements and the host data that a new vector is made from. -/
def extent (p : Plain) (x : Extent) (host : Option Collection) : Option (Int × Option HostData) :=
  match x with
  | .data source => do
    let data ← p.collect source
    return (data.values.size, some data)
  | .count n =>
    match host with
    | none => some (n, none)
    | some source => do return (n, some (← p.collect source))

/-- The elements of a new vector: zeros, or the first numbers of host data. -/
def initial (t : ElementType) (n : Int) : Option HostData → Option (List Scalar)
  | none => some (List.replicate n.toNat t.zero)
  | some data => do return (← (data.elements t n.toNat).toOption).toList

/-- Makes a vector. -/
def construct (p : Plain) (b : Blueprint) : Option (Answer × Plain) := do
  let (n, host) ← p.extent b.extent b.host
  let t ← (do (← b.type.resolve host).supported : Except ExprFault ElementType).toOption
  return (.vector p.vectors.size, { p with vectors := p.vectors.push (t, ← initial t n host) })

/-- Makes a vector anew, of its type. -/
def resizeTo (p : Plain) (v : VectorId) (x : Option Extent) (host : Option Collection) :
    Option Plain := do
  let (t, _) ← p.vectors[v]?
  let (n, host) ← p.extent (← x) host
  return p.put v t (← initial t n host)

/-- Changes the size of a vector; its first elements stay, and zeros are added. -/
def resizePreserving (p : Plain) (v : VectorId) (size : Int) : Option Plain := do
  let (t, xs) ← p.vectors[v]?
  return p.put v t (xs.take size.toNat ++ List.replicate (size.toNat - xs.length) t.zero)

/-- Exchanges two vectors. -/
def swap (p : Plain) (v w : VectorId) : Option Plain := do
  let (t, xs) ← p.vectors[v]?
  let (t', ys) ← p.vectors[w]?
  return (p.put v t' ys).put w t xs

/-- An operation that returns nothing. -/
def silently (p : Option Plain) : Option (Answer × Plain) := p.map fun p => (.done, p)

/-- An operation on plain arrays. -/
def step (E : Evaluation) (p : Plain) : Operation → Option (Answer × Plain)
  | .construct b => p.construct b
  | .write v offset count source _ =>
    if count = 0 then some (.done, p)
    else silently do p.write v offset count (← p.collect source)
  | .read v offset count goal _ => (p.read v offset count goal).map fun r => (.data r.1, r.2)
  | .get v index => do
    let (_, xs) ← p.vectors[v]?
    return (.element (← xs[← position xs.length index]?), p)
  | .set v index x => silently do
    let (t, xs) ← p.vectors[v]?
    return p.put v t (overlay (← position xs.length index) (← single t x) xs)
  | .getSlice v s => do
    let (t, xs) ← p.vectors[v]?
    let b ← range xs.length s
    let values := part b.start (max (b.stop - b.start) 0) xs
    return (.data ⟨.element t, [values.length], values.toArray⟩, p)
  | .setSlice v s x => silently (p.setSlice E v s x)
  | .iterate v => do
    let (_, xs) ← p.vectors[v]?
    return (.elements xs, p)
  | .copy source target _ => silently (p.copy E source target)
  | .copyRange first last result _ => p.copyRange first last result
  | .assign v source => silently (p.assign E v source)
  | .update v op source =>
    silently do p.assign E v (← (Operand.binary op (.vector v) source).toOption)
  | .resizeLike v w _ => silently (p.take E v w)
  | .resizeTo v _ x host _ => silently (p.resizeTo v x host)
  | .resizePreserving v size => silently (p.resizePreserving v size)
  | .swap v w => silently (p.swap v w)

end Plain

end DistributedVector
