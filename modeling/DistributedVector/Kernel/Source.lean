import DistributedVector.Kernel.Loop
import DistributedVector.Kernel.Name
import DistributedVector.Kernel.Term

/-!
# Kernel sources

A kernel source is the text of one kernel with what is needed to launch it. The kernel evaluates a
whole formula for each index of a slice. Its threads stride over the slice by the number of threads
of the grid, so any grid covers any slice. Text and parameters depend on the shape and the result
type only, never on the vectors and scalars bound at a launch.

## Main definitions

* `Parameter`, `Formula.parameters` — the parameters after the length and the result
* `KernelSource`, `KernelSource.ofFormula`, `KernelSource.generate`
-/

namespace DistributedVector

/-- The two kinds of parameters. -/
inductive ParameterKind
  | vector | scalar
  deriving DecidableEq, Repr

/-- A parameter of a kernel, after the length of the slice and the result. -/
structure Parameter where
  name : String
  kind : ParameterKind
  type : DataType
  deriving DecidableEq, Repr

/-- The kind of parameter that a leaf needs. -/
def Terminal.kind {ν : Type} : Terminal ν → ParameterKind
  | vector _ => .vector
  | scalar _ _ => .scalar

/-- The type of a leaf whose vectors are data types. -/
def Terminal.type : Terminal DataType → DataType
  | vector t => t
  | scalar _ t => t

/-- The parameters for a list of leaves, numbered from `first`. -/
def parametersFrom (first : Nat) : List (Terminal DataType) → List Parameter
  | [] => []
  | t :: rest => ⟨parameterName first, t.kind, t.type⟩ :: parametersFrom (first + 1) rest

/-- The parameters of a formula's kernel, one for each leaf. -/
def Formula.parameters (e : Formula DataType) : List Parameter := parametersFrom 1 e.terminals

/-- The text of one kernel and what is needed to launch it. -/
structure KernelSource where
  name : String
  text : String
  shape : KernelShape
  result : DataType
  parameters : List Parameter

namespace KernelSource

/-- A parameter as the signature writes it. -/
def parameterText (p : Parameter) : Except ExprFault String := do
  let type ← p.type.supported
  return match p.kind with
    | .vector => "const " ++ type.kernelName ++ " *" ++ p.name
    | .scalar => type.kernelName ++ " " ++ p.name

/-- The entries of the signature: the length of the slice, the result, the parameters. -/
def signature (result : DataType) (params : List Parameter) : Except ExprFault (List String) := do
  let type ← result.supported
  return "unsigned long long n" :: (type.kernelName ++ " *res") :: (← params.mapM parameterText)

/-- The lines of a kernel. -/
def lines (declarations : List String) (name : String) (signature : List String) (term : String) :
    List String :=
  declarations.flatMap (fun d => [d, ""]) ++
    ["extern \"C\" __global__ void " ++ name ++ "(",
     ",\n".intercalate (signature.map ("    " ++ ·)),
     ")",
     "\x7b"] ++ strideLoop.lines ("res[idx] = " ++ term ++ ";") ++ ["\x7d"]

/-- The kernel of a formula for a result type. Types that devices do not support are refused
first, the result before the leaves, then tags that are no operators. -/
def ofFormula (f : Formula DataType) (result : DataType) : Except ExprFault KernelSource := do
  let name := f.kernelName result
  let signature ← signature result f.parameters
  let term ← f.lower.mapError .tag
  let declarations := f.userFunctions.map UserFunction.declaration
  return {
    name
    text := "\n".intercalate (lines declarations name signature term.render) ++ "\n"
    shape := f.kernelShape result
    result
    parameters := f.parameters }

/-- The kernel of an expression over vectors of known types; a product anywhere in it is refused
before anything else. -/
def generate {ν : Type} (typeOf : ν → DataType) (e : Expr ν) (result : DataType) :
    Except ExprFault KernelSource := do
  ofFormula ((← e.formula).map typeOf) result

end KernelSource

end DistributedVector
