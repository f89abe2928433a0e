import DistributedVector.Digest
import DistributedVector.Expr.Shape

/-!
# Kernel names

A kernel is named after its result type and its formula, operators before operands, joined by
underscores. A name that would be too long, or that would mention a user function, whose body the
name cannot show, is replaced by a digest of the shape.

## Main definitions

* `Formula.tokens` — the parts of a readable name
* `Formula.kernelName` — the name of the kernel of a formula
-/

namespace DistributedVector

/-- What every kernel name starts with. -/
def kernelPrefix : String := "devvec_"

/-- The greatest length of a readable kernel name. -/
def maxReadableName : Nat := 48

namespace Formula

mutual

/-- The parts of a readable name: tags and function names before the operands, `v` or `s` and the
type for leaves. -/
def tokens : Formula DataType → List String
  | vector t => ["v" ++ t.token]
  | scalar _ t => ["s" ++ t.token]
  | unary tag e => tag :: e.tokens
  | binary tag l r => tag :: (l.tokens ++ r.tokens)
  | call g args => g.name :: tokensOfArgs args

/-- The parts of a readable name for arguments. -/
def tokensOfArgs : List (Formula DataType) → List String
  | [] => []
  | e :: rest => e.tokens ++ tokensOfArgs rest

end

/-- The name that spells out the result type and the formula. -/
def readableName (e : Formula DataType) (result : Option DataType) : String :=
  kernelPrefix ++ "_".intercalate ((result.getD .unnamed).token :: e.tokens)

/-- The name made from a digest of the shape. -/
def digestName (e : Formula DataType) (result : Option DataType) : String :=
  kernelPrefix ++ String.ofList (((Digest.md5 (e.kernelShape result).key.render).toList).take 16)

/-- The name of the kernel that computes a formula into a result type. -/
def kernelName (e : Formula DataType) (result : Option DataType) : String :=
  let name := e.readableName result
  if maxReadableName < name.length || !e.userFunctions.isEmpty then e.digestName result else name

end Formula

end DistributedVector
