/-!
# Element types

The ten numeric types that a device vector can hold. Each has a name, a short token used in
kernel names and shapes, a spelling in kernel text and a width in bytes.

## Main definitions

* `ElementType` — the ten types
* `ElementType.name`, `ElementType.token`, `ElementType.kernelName`, `ElementType.width`
* `ElementType.wrap` — an integer reduced to the range of an integer type
-/

namespace DistributedVector

/-- A numeric type that device buffers can hold. -/
inductive ElementType
  | float32 | float64
  | int8 | uint8 | int16 | uint16 | int32 | uint32 | int64 | uint64
  deriving DecidableEq, Repr

namespace ElementType

/-- Every element type. -/
def all : List ElementType :=
  [float32, float64, int8, uint8, int16, uint16, int32, uint32, int64, uint64]

/-- The name of the type, as reports print it. -/
def name : ElementType → String
  | float32 => "float32"
  | float64 => "float64"
  | int8 => "int8"
  | uint8 => "uint8"
  | int16 => "int16"
  | uint16 => "uint16"
  | int32 => "int32"
  | uint32 => "uint32"
  | int64 => "int64"
  | uint64 => "uint64"

/-- The short tag used in shapes and kernel names: kind letter and width in bytes. -/
def token : ElementType → String
  | float32 => "f4"
  | float64 => "f8"
  | int8 => "i1"
  | uint8 => "u1"
  | int16 => "i2"
  | uint16 => "u2"
  | int32 => "i4"
  | uint32 => "u4"
  | int64 => "i8"
  | uint64 => "u8"

/-- The spelling of the type in kernel text. -/
def kernelName : ElementType → String
  | float32 => "float"
  | float64 => "double"
  | int8 => "char"
  | uint8 => "unsigned char"
  | int16 => "short"
  | uint16 => "unsigned short"
  | int32 => "int"
  | uint32 => "unsigned int"
  | int64 => "long long"
  | uint64 => "unsigned long long"

/-- Width in bytes. -/
def width : ElementType → Nat
  | int8 | uint8 => 1
  | int16 | uint16 => 2
  | float32 | int32 | uint32 => 4
  | float64 | int64 | uint64 => 8

/-- Width in bits. -/
def bits (t : ElementType) : Nat := 8 * t.width

/-- Whether values are floating-point numbers. -/
def isFloat : ElementType → Bool
  | float32 | float64 => true
  | _ => false

/-- Whether values can be negative. -/
def isSigned : ElementType → Bool
  | uint8 | uint16 | uint32 | uint64 => false
  | _ => true

/-- The integer congruent to `n` in the range of an integer type. -/
def wrap (t : ElementType) (n : Int) : Int :=
  if t.isSigned then Int.bmod n (Nat.pow 2 t.bits) else n % (Nat.pow 2 t.bits : Nat)

/-- Whether an integer lies in the range of an integer type. -/
def InRange (t : ElementType) (n : Int) : Prop := t.wrap n = n

instance (t : ElementType) (n : Int) : Decidable (t.InRange n) :=
  inferInstanceAs (Decidable (_ = _))

theorem token_injective {s t : ElementType} (h : s.token = t.token) : s = t := by
  revert h; cases s <;> cases t <;> decide

end ElementType

end DistributedVector
