import DistributedVector.Device.Call
import DistributedVector.Element.Text
import DistributedVector.Vector.Fault
import DistributedVector.Vector.Index

/-!
# Host data

Data of the host is an array of numbers with lengths along its axes, stored row by row. A view is a
block of rows of an array that the surroundings keep; transfers read from views and write to them.

## Main definitions

* `HostData` — numbers with a type and a shape; `row`, `reshape`, `every`, `ofValues`, `ofList`
* `HostData.elements` — host data as elements of a vector
* `HostView` — an array kept by the surroundings, or consecutive rows of one
-/

namespace DistributedVector

/-- An array of numbers, row by row. -/
structure HostData where
  type : DataType
  shape : List Nat
  values : Array Scalar

/-- The number of elements of an array of the given lengths. -/
def volume (shape : List Nat) : Nat := shape.foldl (· * ·) 1

namespace HostData

/-- A one-dimensional array of elements. -/
def row (type : ElementType) (values : Array Scalar) : HostData :=
  ⟨.element type, [values.size], values⟩

/-- A one-dimensional array of a type, made of host numbers. -/
def ofValues (type : DataType) (values : List Scalar) : Except NumberFault HostData := do
  return ⟨type.forValues values, [values.length], (← values.mapM type.accept).toArray⟩

/-- The type of the array of a list of numbers: integers of 64 bits, signed if all of them fit,
doubles for a mixture and for no numbers at all, and objects for integers that fit nowhere. -/
def listType (values : List Scalar) : DataType :=
  let ints := values.filterMap fun
    | .int n => some n
    | .float _ => none
  let signed := ints.filter fun n => ElementType.int64.InRange n
  let unsigned := ints.filter fun n => ¬ ElementType.int64.InRange n
  if unsigned.any fun n => ¬ ElementType.uint64.InRange n then .foreign .object
  else if values.isEmpty ∨ ints.length < values.length then .element .float64
  else if unsigned.isEmpty then .element .int64
  else if signed.isEmpty then .element .uint64
  else .element .float64

/-- The array of a list of numbers. -/
def ofList (values : List Scalar) : HostData :=
  match listType values with
  | .element t => ⟨.element t, [values.length], (values.map t.convert).toArray⟩
  | t => ⟨t, [values.length], values.toArray⟩

/-- The first `count` numbers as elements of a type. -/
def elements (d : HostData) (type : ElementType) (count : Nat) :
    Except NumberFault (Array Scalar) :=
  ((d.values.toList.take count).mapM (type.cast d.type)).map (·.toArray)

/-- The numbers that the array shows. -/
def shown (d : HostData) : Except NumberFault (List Scalar) := d.values.toList.mapM d.type.shown

/-- The numbers from `start` on in steps. -/
def range (start step : Scalar) (count : Nat) : List Scalar :=
  (List.range count).map fun (i : Nat) =>
    match start, step with
    | .int a, .int b => .int (a + (i : Int) * b)
    | a, .int b => .float (a.toFloat + Float.ofInt ((i : Int) * b))
    | a, .float b => .float (a.toFloat + Float.ofNat i * b)

/-- The same numbers with other lengths along the axes. One length may be left open by a negative
number if the others determine it. -/
def reshape (d : HostData) (lengths : List Int) : Except HostFault HostData :=
  let total := d.values.size
  let known := volume ((lengths.filter (0 ≤ ·)).map Int.toNat)
  let opened := (lengths.filter (· < 0)).length
  if 1 < opened ∨ opened = 1 ∧ known = 0 then .error .shape
  else
    let shape := lengths.map fun n => if n < 0 then total / known else n.toNat
    if volume shape = total then .ok { d with shape } else .error .shape

/-- The rows at the given positions. -/
def rows (d : HostData) (row : Nat) (positions : List Nat) : Array Scalar :=
  positions.foldl (fun a i => a ++ d.values.extract (i * row) ((i + 1) * row)) #[]

/-- Every `step`-th row, and whether these rows lie side by side. -/
def every (d : HostData) (step : Int) : Except HostFault (HostData × Bool) :=
  match d.shape with
  | [] => .error .axis
  | n :: rest =>
    match (Slice.mk none none (some step)).bounds n with
    | none => .error .zeroStride
    | some b =>
      .ok (⟨d.type, b.count :: rest, d.rows (volume rest) b.positions⟩,
        step = 1 ∨ b.count ≤ 1 ∨ volume rest = 0)

end HostData

/-- An array kept by the surroundings, or consecutive rows of one. -/
structure HostView where
  cell : CellId
  /-- the position of the first element in the array -/
  offset : Nat
  type : DataType
  shape : List Nat
  /-- whether the elements lie side by side in the host's memory -/
  contiguous : Bool
  writeable : Bool

namespace HostView

/-- The number of elements. -/
def size (h : HostView) : Nat := volume h.shape

/-- The number of rows; a single number has none. -/
def length (h : HostView) : Except HostFault Nat :=
  match h.shape with
  | [] => .error .noLength
  | n :: _ => .ok n

/-- The rows in a slice. -/
def slice (h : HostView) (start stop : Int) : Except HostFault HostView :=
  match h.shape with
  | [] => .error .axis
  | n :: rest =>
    let first := Slice.clamp n 0 n start
    let count := (Slice.clamp n 0 n stop - first).toNat
    .ok { h with
      offset := h.offset + first.toNat * volume rest
      shape := count :: rest
      contiguous := h.contiguous || count ≤ 1 || volume rest = 0 }

end HostView

end DistributedVector
