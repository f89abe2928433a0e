import DistributedVector.Element.DataType
import DistributedVector.Number.Binary64

/-!
# Scalars and their conversions

The contents of buffers and host arrays are integers or doubles. A buffer of type `float32`
holds only doubles that are single-precision numbers, and a buffer of an integer type holds only
integers in its range. Numbers get there in three ways: the contents of an array are converted
without refusal, a plain number of the host has to fit, and a number that brings a type of its own
has to fit signed integer types only.

## Main definitions

* `Scalar` — an integer or a double
* `ElementType.convert` — conversion of array contents: integers wrap, doubles are truncated
* `ElementType.encode` — conversion of a single host number, which refuses what does not fit
* `ElementType.pack` — conversion of a single number of a data type
* `DataType.accept` — a host number as it comes to stand in an array of a data type
-/

namespace DistributedVector

/-- Why a host number does not fit an element type. -/
inductive NumberFault
  /-- too large or too small for the type -/
  | overflow
  /-- a text or a value that stands for no number -/
  | notNumeric
  /-- an object that cannot be converted to a number at all -/
  | notConvertible
  deriving DecidableEq, Repr

/-- A number held by a buffer or a host array. -/
inductive Scalar
  | int (value : Int)
  | float (value : Float)

namespace Scalar

instance : Inhabited Scalar := ⟨int 0⟩

/-- The scalar as a double; an integer goes to the nearest one. -/
def toFloat : Scalar → Float
  | int n => Float.ofInt n
  | float x => x

/-- The scalar as a double, which an integer must not be too large for. -/
def toDouble : Scalar → Except NumberFault Float
  | int n => if (Float.ofInt n).isInf then .error .overflow else .ok (Float.ofInt n)
  | float x => .ok x

/-- The scalar as an integer: a double is truncated toward zero. -/
def toInteger : Scalar → Except NumberFault Int
  | int n => .ok n
  | float x =>
    match Binary64.truncate? x with
    | some n => .ok n
    | none => .error (if x.isNaN then .notNumeric else .overflow)

/-- The sum of two scalars: exact for integers, and a double as soon as one of them is. -/
def add : Scalar → Scalar → Except NumberFault Scalar
  | int a, int b => .ok (int (a + b))
  | a, b => do return float ((← a.toDouble) + (← b.toDouble))

/-- Whether the scalar differs from zero; what is no number does. -/
def isNonzero : Scalar → Bool
  | int n => n ≠ 0
  | float x => !(x == 0)

end Scalar

namespace ElementType

/-- Rounds a double to a floating-point type. -/
def round (t : ElementType) (x : Float) : Float :=
  if t = float32 then x.toFloat32.toFloat else x

/-- The machine integers that doubles are truncated to on their way into an integer type: those of
64 bits for the types that need them and for `uint32`, those of 32 bits for all others. -/
def register (t : ElementType) : ElementType :=
  if t.bits = 64 ∨ t = uint32 then int64 else int32

/-- The integer that a double is truncated to on its way into an integer type. What is no integer
of the register or of the type is the least integer of the register. -/
def truncate (t : ElementType) (x : Float) : Int :=
  let least : Int := -(Nat.pow 2 (t.register.bits - 1) : Nat)
  match Binary64.truncate? x with
  | some n => if t.register.InRange n ∨ t.InRange n then n else least
  | none => least

/-- Conversion of array contents into buffer contents: integers wrap around, doubles are
truncated toward zero, and each floating-point result is rounded once. -/
def convert (t : ElementType) : Scalar → Scalar
  | .int n =>
    if t = float32 then .float (Float32.ofInt n).toFloat
    else if t.isFloat then .float (Float.ofInt n)
    else .int (t.wrap n)
  | .float x =>
    if t.isFloat then .float (t.round x)
    else .int (t.wrap (t.truncate x))

/-- The zero of an element type. -/
def zero (t : ElementType) : Scalar :=
  if t.isFloat then .float 0 else .int 0

/-- Conversion of one host number. A floating-point type takes it as a double, rounded to the type;
an integer type takes the truncated number, which has to be in its range. -/
def encode (t : ElementType) (x : Scalar) : Except NumberFault Scalar := do
  if t.isFloat then return .float (t.round (← x.toDouble))
  else
    let n ← x.toInteger
    if t.InRange n then return .int n else throw .overflow

/-- Conversion of one number of a data type. A number of the type itself stays as it is, one for a
signed integer type has to fit, and any other one is converted like array contents. -/
def pack (t : ElementType) (source : DataType) (x : Scalar) : Except NumberFault Scalar :=
  if source = .element t then .ok x
  else if t.isSigned && !t.isFloat then t.encode x
  else .ok (t.convert x)

end ElementType

/-- A number as a point in time or a length of time, which are integers of 64 bits. -/
def Scalar.toTicks : Scalar → Except NumberFault Scalar
  | .int n => if ElementType.int64.InRange n then .ok (.int n) else .error .overflow
  | .float _ => .error .notNumeric

/-- A host number as it comes to stand in an array of a data type. -/
def DataType.accept : DataType → Scalar → Except NumberFault Scalar
  | element t, x => t.encode x
  | foreign (.swapped t), x => t.encode x
  | foreign .boolean, x => return .int (if x.isNonzero then 1 else 0)
  | foreign .half, x => do return .float (Binary64.toHalf (← x.toDouble))
  | foreign .complex64, x => do return .float (ElementType.float32.round (← x.toDouble))
  | foreign .complex128, x => do return .float (← x.toDouble)
  | foreign .date, x | foreign .duration, x => x.toTicks
  | foreign _, x => return x

end DistributedVector
