import DistributedVector.Expr.Basic

/-!
# Expressions as texts

An expression is shown as the name of the kind of its node and, in parentheses, the parts of the
node by name. Functions are shown in the same way, with the text of their body; data types by a
short code.

## Main definitions

* `DataType.shortText` — a data type in short
* `Function.text` — a function with all its parts
* `Expr.text` — an expression, given the texts of its vectors
-/

namespace DistributedVector

/-- A name with named parts in parentheses. -/
def recordText (name : String) (parts : List (String × String)) : String :=
  name ++ "(" ++ ", ".intercalate (parts.map fun p => p.1 ++ "=" ++ p.2) ++ ")"

/-- Entries in parentheses, with a comma after a lone one. -/
def tupleText : List String → String
  | [x] => "(" ++ x ++ ",)"
  | xs => "(" ++ ", ".intercalate xs ++ ")"

/-- The code of a type of host data; texts without a length have none in their code either. -/
def ForeignType.code : ForeignType → String
  | .object => "O"
  | .bytes n => "S" ++ (if n = 0 then "" else toString n)
  | .text n => "<U" ++ (if n = 0 then "" else toString n)
  | .date => "<M8[ns]"
  | .duration => "<m8[s]"
  | .unitless => "<m8"
  | t => t.name

/-- A data type in short. -/
def DataType.shortText (t : DataType) : String :=
  let code := match t with
    | .element t => t.name
    | .foreign t => t.code
  "dtype(" ++ Text.quote code ++ ")"

/-- A parameter with its type. -/
def UserFunction.paramPair (p : String × ElementType) : String :=
  tupleText [Text.quote p.1, (DataType.element p.2).shortText]

/-- A function with all its parts. -/
def Function.text : Function → String
  | .builtin b => recordText "BuiltinFunction" [("name", Text.quote b.name)]
  | .user f =>
    recordText "UserFunction"
      [("name", Text.quote f.name), ("result_type", (DataType.element f.result).shortText),
        ("params", tupleText (f.params.map UserFunction.paramPair)), ("body", Text.quote f.body)]

/-- The value of a leaf: plain integers and doubles as they are, numbers of other types with the
name of their type. -/
def Scalar.leafText (x : Scalar) : DataType → String
  | .element t => if t = .int64 ∨ t = .float64 then x.text else t.fullText x
  | .foreign _ => x.text

namespace Expr

variable {ν : Type}

mutual

/-- An expression with all its parts, given the texts of its vectors. -/
def text (vectorText : ν → String) : Expr ν → String
  | vector v => recordText "VectorTerminal" [("vector", vectorText v)]
  | scalar x t => recordText "ScalarTerminal" [("value", x.leafText t), ("dtype", t.shortText)]
  | unary tag e => recordText "UnaryOp" [("tag", Text.quote tag), ("operand", e.text vectorText)]
  | binary tag l r =>
    recordText "BinaryOp"
      [("tag", Text.quote tag), ("left", l.text vectorText), ("right", r.text vectorText)]
  | call g args =>
    recordText "FunctionCall" [("function", g.text), ("args", tupleText (texts vectorText args))]
  | product a v => recordText "OperatorProduct" [("operator", a.name), ("vector", vectorText v)]

/-- Arguments with all their parts. -/
def texts (vectorText : ν → String) : List (Expr ν) → List String
  | [] => []
  | e :: rest => e.text vectorText :: texts vectorText rest

end

end Expr

end DistributedVector
