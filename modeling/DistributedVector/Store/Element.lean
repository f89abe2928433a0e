import DistributedVector.Store.Assign
import DistributedVector.Vector.Number

/-!
# Elements

Single elements and slices of a vector are read and set. An element is found by the device that owns
it and its position there; reading or setting it is a transfer of one element that is waited for. A
slice has to be contiguous; an expression or a single value can be assigned to the whole vector
only.

## Main definitions

* `ElementRef`, `Store.locate` — where an element is
* `Store.get`, `Store.set` — an element by index
* `Store.getSlice`, `Store.setSlice` — a slice
-/

namespace DistributedVector

/-- Where an element is: the number of the shard and the position in it. -/
structure ElementRef where
  vector : VectorId
  shard : Nat
  position : Int
  deriving DecidableEq, Repr

/-- The text of an element reference in reports. -/
def ElementRef.render (e : ElementRef) : String :=
  "Element(device=" ++ toString e.shard ++ ", index=" ++ toString e.position ++ ")"

/-- What an element or a slice is set to. -/
inductive Content
  | operand (x : Operand VectorId)
  | data (source : Collection)

/-- The position that an index stands for; negative ones count from the end. -/
def Descriptor.position (d : Descriptor) (i : Int) : Except VectorFault Nat :=
  let j := if i < 0 then i + d.size else i
  if 0 ≤ j ∧ j < d.size then .ok j.toNat else .error (.index d.size)

/-- The bounds of a contiguous slice. -/
def Descriptor.range (d : Descriptor) (s : Slice) : Except VectorFault SliceBounds :=
  match s.bounds d.size with
  | none => .error .zeroStep
  | some b => if b.step = 1 then .ok b else .error .step

namespace Store

/-- Where the element of an index is. -/
def locate (v : VectorId) (index : Index) : Task Store ElementRef := do
  let d ← vector v
  let i ← orFault .number index.toInt
  let position ← orFault .vector (d.position i)
  let owner := ownerOf d position
  return ⟨v, owner, (position : Int) - d.starts.getD owner 0⟩

/-- Reads an element. -/
def readElement (e : ElementRef) : Task Store Scalar :=
  onVector e.vector (Vector.readElement e.shard e.position)

/-- The data of a vector's type that a content becomes: one element for a single value, all of a
collection, in the form that it has. Each has to fit as far as a number of its type has to; the
contents of arrays are converted. -/
def elementsFor (type : ElementType) : Content → Task Store HostData
  | .operand (.host .emptyList) => return .row type #[]
  | .operand (.host x) => do return .row type #[← orFault .number (x.element type)]
  | .operand (.vector w) | .data (.vector w) => do
    let values ← elements w
    let d ← vector w
    return .row type (← orFault .number (values.toArray.mapM (type.pack (.element d.type))))
  | .operand _ => throw (.number .notConvertible)
  | .data (.list values) => do
    return .row type (← orFault .number (values.toArray.mapM type.encode))
  | .data source => do
    let data ← gather source
    return ⟨.element type, data.shape, ← orFault .number (data.elements type data.values.size)⟩

/-- Sets an element. -/
def writeElement (e : ElementRef) (x : Content) : Task Store Unit := do
  let d ← vector e.vector
  unless e.shard < d.shards.length do throw (.vector .noSuchDevice)
  let data ← elementsFor d.type x
  onVector e.vector (Vector.writeElements e.shard e.position data)

/-- Reads the element of an index. -/
def get (v : VectorId) (index : Index) : Task Store Scalar := do readElement (← locate v index)

/-- Sets the element of an index. -/
def set (v : VectorId) (index : Index) (x : Content) : Task Store Unit := do
  writeElement (← locate v index) x

/-- Reads a contiguous slice. -/
def getSlice (v : VectorId) (s : Slice) : Task Store HostData := do
  let b ← orFault .vector ((← vector v).range s)
  onVector v (Vector.readRange b.start (max (b.stop - b.start) 0))

/-- Whether a content is assigned as an expression rather than written as host data. -/
def Content.isExpression : Content → Bool
  | .operand (.vector _) | .operand (.expr _) => true
  | .operand (.host x) => x.isSingle
  | .operand (.operator _) | .data _ => false

/-- The element that an operand becomes where host data is needed. -/
def loneElement (type : ElementType) : Operand VectorId → Except NumberFault Scalar
  | .host x => x.element type
  | _ => .error .notConvertible

/-- Writes a content that is no expression to a range. What is neither an array nor a list is host
data of one element. -/
def writeContent (v : VectorId) (offset count : Int) : Content → Task Store Unit
  | .data source => write v offset count source true
  | .operand (.host .emptyList) => write v offset count (.list []) true
  | .operand x => do
    let d ← vector v
    let element ← orFault .number (loneElement d.type x)
    onVector v (Vector.write offset count (.row d.type #[element]) true)

/-- Sets a contiguous slice. -/
def setSlice (v : VectorId) (s : Slice) (x : Content) : Task Store Unit := do
  let d ← vector v
  let b ← orFault .vector (d.range s)
  match x, Content.isExpression x with
  | .operand e, true =>
    unless b.start = 0 ∧ b.stop = d.size do throw (.vector .partialAssignment)
    assign v e
  | x, _ =>
    let count := max (b.stop - b.start) 0
    unless count = 0 do writeContent v b.start count x

end Store

end DistributedVector
