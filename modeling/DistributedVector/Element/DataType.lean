import DistributedVector.Element.Basic

/-!
# Data types of host data

Host arrays and requests name their element type in a wider vocabulary than devices support:
half precision, truth values, complex numbers, records, dates, and types in swapped byte order.
A `DataType` is a supported `ElementType` or one of these foreign types.

## Main definitions

* `ForeignType`, `DataType`
* `DataType.ofName?` — the data type that a name stands for
* `DataType.token` — the tag used in shapes; it does not tell byte orders apart
-/

namespace DistributedVector

/-- Data types that host data may have but device buffers may not. -/
inductive ForeignType
  | half
  | boolean
  | complex64
  | complex128
  | object
  | bytes (length : Nat)
  | text (length : Nat)
  | date
  | duration
  /-- a duration in units that are not given -/
  | unitless
  | swapped (type : ElementType)
  deriving DecidableEq, Repr

/-- The type of the elements of host data. -/
inductive DataType
  | element (type : ElementType)
  | foreign (type : ForeignType)
  deriving DecidableEq, Repr

namespace ForeignType

/-- The name of the type, as reports print it. -/
def name : ForeignType → String
  | half => "float16"
  | boolean => "bool"
  | complex64 => "complex64"
  | complex128 => "complex128"
  | object => "object"
  | bytes n => "|S" ++ toString n
  | text n => "<U" ++ toString n
  | date => "datetime64[ns]"
  | duration => "timedelta64[s]"
  | unitless => "timedelta64"
  | swapped t => ">" ++ t.token

/-- The kind letter and width of the type, without a byte-order mark. -/
def token : ForeignType → String
  | half => "f2"
  | boolean => "b1"
  | complex64 => "c8"
  | complex128 => "c16"
  | object => "O"
  | bytes n => "S" ++ toString n
  | text n => "U" ++ toString n
  | date => "M8[ns]"
  | duration => "m8[s]"
  | unitless => "m8"
  | swapped t => t.token

/-- Width in bytes. -/
def width : ForeignType → Nat
  | half => 2
  | boolean => 1
  | complex64 | object | date | duration | unitless => 8
  | complex128 => 16
  | bytes n => n
  | text n => 4 * n
  | swapped t => t.width

end ForeignType

namespace DataType

/-- The name of the type, as reports print it. -/
def name : DataType → String
  | element t => t.name
  | foreign t => t.name

/-- The tag used in shapes and kernel names. A type in swapped byte order has the tag of the
type itself. -/
def token : DataType → String
  | element t => t.token
  | foreign t => t.token

/-- Width in bytes. -/
def width : DataType → Nat
  | element t => t.width
  | foreign t => t.width

/-- The element type, if devices support the data type. -/
def element? : DataType → Option ElementType
  | element t => some t
  | foreign _ => none

/-- Whether devices support the data type. -/
def isSupported (t : DataType) : Bool := t.element?.isSome

/-- The type taken where none is named. -/
def unnamed : DataType := element .float64

@[simp] theorem element?_element (t : ElementType) : (element t).element? = some t := rfl

@[simp] theorem element?_foreign (t : ForeignType) : (foreign t).element? = none := rfl

@[simp] theorem isSupported_element (t : ElementType) : (element t).isSupported = true := rfl

@[simp] theorem isSupported_foreign (t : ForeignType) : (foreign t).isSupported = false := rfl

/-- Names that stand for a type whatever the byte order: codes of one letter, or of a letter and
a width. -/
def codes : List (String × DataType) :=
  [("f4", element .float32), ("f", element .float32),
   ("f8", element .float64), ("d", element .float64),
   ("i1", element .int8), ("b", element .int8),
   ("u1", element .uint8), ("B", element .uint8),
   ("i2", element .int16), ("h", element .int16),
   ("u2", element .uint16), ("H", element .uint16),
   ("i4", element .int32), ("i", element .int32),
   ("u4", element .uint32), ("I", element .uint32),
   ("i8", element .int64), ("l", element .int64), ("q", element .int64),
   ("u8", element .uint64), ("L", element .uint64), ("Q", element .uint64),
   ("f2", foreign .half), ("e", foreign .half),
   ("b1", foreign .boolean), ("?", foreign .boolean),
   ("c8", foreign .complex64), ("c16", foreign .complex128),
   ("O", foreign .object), ("S5", foreign (.bytes 5)),
   ("M8[ns]", foreign .date), ("m8[s]", foreign .duration)]

/-- Names that are words. -/
def words : List (String × DataType) :=
  (ElementType.all.map fun t => (t.name, element t)) ++
  [("single", element .float32), ("double", element .float64), ("float", element .float64),
   ("byte", element .int8), ("ubyte", element .uint8),
   ("short", element .int16), ("ushort", element .uint16),
   ("intc", element .int32), ("uintc", element .uint32),
   ("int", element .int64), ("longlong", element .int64), ("intp", element .int64),
   ("uint", element .uint64), ("ulonglong", element .uint64), ("uintp", element .uint64),
   ("float16", foreign .half), ("half", foreign .half), ("bool", foreign .boolean),
   ("complex64", foreign .complex64), ("complex128", foreign .complex128),
   ("object", foreign .object), ("str", foreign (.text 0)),
   ("datetime64[ns]", foreign .date), ("timedelta64[s]", foreign .duration)]

/-- The type with its bytes in the opposite order; a type of one byte has no order. -/
def swap : DataType → Option DataType
  | element t => some (if t.width = 1 then element t else foreign (.swapped t))
  | foreign .boolean => some (foreign .boolean)
  | foreign .object => some (foreign .object)
  | foreign (.bytes n) => some (foreign (.bytes n))
  | foreign _ => none

/-- The data type that a name stands for: a word, or a code with an optional byte-order mark. -/
def ofName? (s : String) : Option DataType :=
  match words.lookup s with
  | some t => some t
  | none =>
    match s.toList with
    | '>' :: code => (codes.lookup (String.ofList code)).bind swap
    | c :: code =>
      if c = '<' ∨ c = '=' ∨ c = '|' then codes.lookup (String.ofList code)
      else codes.lookup s
    | [] => none

end DataType

end DistributedVector
