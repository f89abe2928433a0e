import DistributedVector.Expr.Fault
import DistributedVector.Key
import DistributedVector.Text.Identifier

/-!
# Device functions

Functions callable inside vector expressions: builtins, which kernels use without declaring them,
and user functions, which carry their own body and are declared ahead of every kernel that calls
them.

## Main definitions

* `UserFunction`, `UserFunction.define`, `UserFunction.declaration`
* `Function` — a builtin or a user function, with `name`, `arity`, `key`
-/

namespace DistributedVector

/-- A function with a body given in kernel text. -/
structure UserFunction where
  name : String
  result : ElementType
  params : List (String × ElementType)
  body : String
  deriving DecidableEq, Repr

namespace UserFunction

/-- Defines a function from type names. The name is checked first, then every type is looked up,
and only then it is checked that devices support the result type and each parameter type. -/
def define (name : String) (result : Option String) (params : List (String × Option String))
    (body : String) : Except ExprFault UserFunction := do
  unless Text.isIdentifier name do throw (.functionName name)
  let resultType ← DataType.named result
  let paramTypes ← params.mapM fun p => do return (p.1, ← DataType.named p.2)
  let resultElement ← resultType.supported
  let paramElements ← paramTypes.mapM fun p => do return (p.1, ← p.2.supported)
  return ⟨name, resultElement, paramElements, body⟩

/-- One parameter as the declaration writes it. -/
def paramText (p : String × ElementType) : String := p.2.kernelName ++ " " ++ p.1

/-- The declaration of the function in kernel text. -/
def declaration (f : UserFunction) : String :=
  "__device__ " ++ f.result.kernelName ++ " " ++ f.name ++ "(" ++
    ", ".intercalate (f.params.map paramText) ++ ") \x7b\n    " ++ f.body ++ "\n\x7d"

/-- The key of the function: name, types and body. -/
def key (f : UserFunction) : Key :=
  .tuple [.text "user", .text f.name, .text f.result.token,
    .tuple (f.params.map fun p => .tuple [.text p.1, .text p.2.token]), .text f.body]

end UserFunction

/-- A function that an expression can call. -/
inductive Function
  | builtin (b : Builtin)
  | user (f : UserFunction)
  deriving DecidableEq, Repr

namespace Function

/-- The builtin function of a name. -/
def builtinNamed (s : String) : Except ExprFault Function :=
  match Builtin.ofName? s with
  | some b => .ok (builtin b)
  | none => .error (.notBuiltin s)

/-- The name by which kernel text calls the function. -/
def name : Function → String
  | builtin b => b.name
  | user f => f.name

/-- The number of arguments. -/
def arity : Function → Nat
  | builtin b => b.arity
  | user f => f.params.length

/-- The key of the function; equal keys stand for the same function. -/
def key : Function → Key
  | builtin b => .tuple [.text "builtin", .text b.name]
  | user f => f.key

/-- The declaration that kernels need, if any. -/
def declaration : Function → Option String
  | builtin _ => none
  | user f => some f.declaration

/-- The user function, unless the function is builtin. -/
def user? : Function → Option UserFunction
  | builtin _ => none
  | user f => some f

end Function

end DistributedVector
