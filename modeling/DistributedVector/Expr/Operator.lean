import DistributedVector.Text.Quoted

/-!
# Operators and builtin functions

The operators and device functions that an expression may use. Each is known by a tag, which
expression trees carry and kernel names are made of; operators also have a symbol in kernel text,
and builtin functions an arity.

## Main definitions

* `BinaryOp`, `UnaryOp`, `Builtin` — the operators and functions, with `tag`, `symbol`, `arity`
* `OpCategory.ofTag` — the category of a tag
* `binaryOp`, `unaryOp`, `builtinOp` — lookups that refuse tags of another category
-/

namespace DistributedVector

/-- Operators of two operands. The bitwise ones make sense for integer types only. -/
inductive BinaryOp
  | add | sub | mul | div | mod | and | or | xor | lshift | rshift
  deriving DecidableEq, Repr

/-- Operators of one operand. -/
inductive UnaryOp
  | neg | pos | invert
  deriving DecidableEq, Repr

/-- Device functions that need no declaration. -/
inductive Builtin
  | sin | cos | tan | exp | log | log10 | sqrt | rsqrt | fabs | floor | ceil
  | pow | fmin | fmax | hypot | atan2
  deriving DecidableEq, Repr

namespace BinaryOp

/-- Every binary operator. -/
def all : List BinaryOp := [add, sub, mul, div, mod, and, or, xor, lshift, rshift]

/-- The tag of the operator. -/
def tag : BinaryOp → String
  | add => "add"
  | sub => "sub"
  | mul => "mul"
  | div => "div"
  | mod => "mod"
  | and => "and"
  | or => "or"
  | xor => "xor"
  | lshift => "lshift"
  | rshift => "rshift"

/-- The symbol of the operator in kernel text. -/
def symbol : BinaryOp → String
  | add => "+"
  | sub => "-"
  | mul => "*"
  | div => "/"
  | mod => "%"
  | and => "&"
  | or => "|"
  | xor => "^"
  | lshift => "<<"
  | rshift => ">>"

/-- The operator of a tag. -/
def ofTag? (t : String) : Option BinaryOp := all.find? (·.tag == t)

theorem ofTag?_tag (op : BinaryOp) : ofTag? op.tag = some op := by cases op <;> decide

end BinaryOp

namespace UnaryOp

/-- Every unary operator. -/
def all : List UnaryOp := [neg, pos, invert]

/-- The tag of the operator. -/
def tag : UnaryOp → String
  | neg => "neg"
  | pos => "pos"
  | invert => "invert"

/-- The symbol of the operator in kernel text. -/
def symbol : UnaryOp → String
  | neg => "-"
  | pos => "+"
  | invert => "~"

/-- The operator of a tag. -/
def ofTag? (t : String) : Option UnaryOp := all.find? (·.tag == t)

theorem ofTag?_tag (op : UnaryOp) : ofTag? op.tag = some op := by cases op <;> decide

/-- The operator on an integer. -/
def ofInt : UnaryOp → Int → Int
  | neg, n => -n
  | pos, n => n
  | invert, n => -n - 1

/-- The operator on a double, which has no complement. -/
def ofFloat? : UnaryOp → Float → Option Float
  | neg, x => some (-x)
  | pos, x => some x
  | invert, _ => none

end UnaryOp

namespace Builtin

/-- Every builtin function, by name in alphabetical order. -/
def all : List Builtin :=
  [atan2, ceil, cos, exp, fabs, floor, fmax, fmin, hypot, log, log10, pow, rsqrt, sin, sqrt, tan]

/-- The name of the function, which is also its tag. -/
def name : Builtin → String
  | sin => "sin"
  | cos => "cos"
  | tan => "tan"
  | exp => "exp"
  | log => "log"
  | log10 => "log10"
  | sqrt => "sqrt"
  | rsqrt => "rsqrt"
  | fabs => "fabs"
  | floor => "floor"
  | ceil => "ceil"
  | pow => "pow"
  | fmin => "fmin"
  | fmax => "fmax"
  | hypot => "hypot"
  | atan2 => "atan2"

/-- The number of arguments. -/
def arity : Builtin → Nat
  | pow | fmin | fmax | hypot | atan2 => 2
  | _ => 1

/-- The function of a name. -/
def ofName? (s : String) : Option Builtin := all.find? (·.name == s)

theorem ofName?_name (b : Builtin) : ofName? b.name = some b := by cases b <;> decide

end Builtin

/-- The kinds of tags. -/
inductive OpCategory
  | binary | unary | function
  deriving DecidableEq, Repr

/-- Why a tag is refused. -/
inductive TagFault
  /-- nothing has this tag -/
  | unknown (tag : String)
  /-- the tag is of another category than the one wanted -/
  | category (tag : String) (found wanted : OpCategory)
  deriving DecidableEq, Repr

namespace OpCategory

/-- The name of the category, as messages print it. -/
def name : OpCategory → String
  | binary => "binary"
  | unary => "unary"
  | function => "function"

/-- The category of a tag. -/
def ofTag (t : String) : Except TagFault OpCategory :=
  if (BinaryOp.ofTag? t).isSome then .ok binary
  else if (UnaryOp.ofTag? t).isSome then .ok unary
  else if (Builtin.ofName? t).isSome then .ok function
  else .error (.unknown t)

end OpCategory

namespace TagFault

/-- The wording of a refusal. -/
def message : TagFault → String
  | unknown t => "Unknown expression op: " ++ Text.quote t
  | category t found wanted =>
    Text.quote t ++ " is a " ++ found.name ++ " op, not " ++ wanted.name

/-- The refusal of a tag in a place for tags of category `wanted`. -/
def refusing (t : String) (wanted : OpCategory) : TagFault :=
  match OpCategory.ofTag t with
  | .ok found => category t found wanted
  | .error e => e

end TagFault

/-- The binary operator of a tag. -/
def binaryOp (t : String) : Except TagFault BinaryOp :=
  match BinaryOp.ofTag? t with
  | some op => .ok op
  | none => .error (.refusing t .binary)

/-- The unary operator of a tag. -/
def unaryOp (t : String) : Except TagFault UnaryOp :=
  match UnaryOp.ofTag? t with
  | some op => .ok op
  | none => .error (.refusing t .unary)

/-- The builtin function of a tag. -/
def builtinOp (t : String) : Except TagFault Builtin :=
  match Builtin.ofName? t with
  | some b => .ok b
  | none => .error (.refusing t .function)

@[simp] theorem binaryOp_tag (op : BinaryOp) : binaryOp op.tag = .ok op := by
  simp [binaryOp, BinaryOp.ofTag?_tag]

@[simp] theorem unaryOp_tag (op : UnaryOp) : unaryOp op.tag = .ok op := by
  simp [unaryOp, UnaryOp.ofTag?_tag]

@[simp] theorem builtinOp_name (b : Builtin) : builtinOp b.name = .ok b := by
  simp [builtinOp, Builtin.ofName?_name]

end DistributedVector
