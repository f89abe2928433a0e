import DistributedVector.Element.DataType
import DistributedVector.Expr.Operator

/-!
# Faults of expressions

Every reason for which an expression, a function or a kernel cannot be built.

## Main definitions

* `ExprFault`, `ExprFault.message`
-/

namespace DistributedVector

/-- Why an expression, a function or a kernel cannot be built. -/
inductive ExprFault
  /-- an operator tag is unknown or out of place -/
  | tag (fault : TagFault)
  /-- devices do not support the element type -/
  | unsupportedType (type : DataType)
  /-- no type has the given name -/
  | unknownType
  /-- no builtin function has the given name -/
  | notBuiltin (name : String)
  /-- the name of a user function is no identifier -/
  | functionName (name : String)
  /-- a function is called with the wrong number of arguments -/
  | arity (name : String) (takes got : Nat)
  /-- a truth value stands where a number is needed -/
  | booleanScalar
  /-- a value of the named type stands where a number is needed -/
  | unsupportedScalar (typeName : String)
  /-- a linear operator is applied to something other than a vector -/
  | productOperand
  /-- a product with a linear operator stands inside an expression -/
  | misplacedProduct
  /-- neither operand knows the operation -/
  | rejectedOperands
  deriving DecidableEq, Repr

namespace ExprFault

/-- The wording of a fault, where it has one of its own. -/
def message : ExprFault → Option String
  | tag f => some f.message
  | unsupportedType t => some ("Unsupported vector element type: " ++ t.name)
  | unknownType => none
  | notBuiltin name => some (Text.quote name ++ " is not a builtin device function")
  | functionName name => some ("Invalid device function name: " ++ Text.quote name)
  | arity name takes got =>
    some (name ++ "() takes " ++ toString takes ++ " argument(s), got " ++ toString got)
  | booleanScalar => some "Boolean scalars cannot be used in vector expressions"
  | unsupportedScalar t => some ("Unsupported scalar type in vector expression: " ++ t)
  | productOperand => some "A linear operator can only multiply a device vector"
  | misplacedProduct =>
    some ("Operator products may only be added to or subtracted from the " ++
      "top level of an assignment")
  | rejectedOperands => none

end ExprFault

namespace DataType

/-- The data type of an optional name; no name stands for doubles. -/
def named : Option String → Except ExprFault DataType
  | none => .ok unnamed
  | some s => match ofName? s with
    | some t => .ok t
    | none => .error .unknownType

/-- The element type, which devices must support. -/
def supported (t : DataType) : Except ExprFault ElementType :=
  match t.element? with
  | some e => .ok e
  | none => .error (.unsupportedType t)

@[simp] theorem supported_element (e : ElementType) : (element e).supported = .ok e := rfl

@[simp] theorem supported_foreign (t : ForeignType) :
    (foreign t).supported = .error (.unsupportedType (foreign t)) := rfl

end DataType

end DistributedVector
