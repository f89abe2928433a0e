import DistributedVector.Kernel.Source

/-!
# Reading kernels

Devices are given the text of a kernel and nothing else. They find the function that stores the
results by the words that start it, the loop around the line that stores one of them, and the
functions that are declared in front. The line itself is a term of operators in parentheses,
parameters, of which some are taken at the index, and calls of functions by their names. What a name
means is looked up in the scopes around the line.

## Main definitions

* `Reading`, `Reading.read` — what the text of a term shows, and reading it
* `Meaning`, `meanings` — all that a name can mean, from the innermost scope that has it
* `KernelText`, `KernelText.read` — what the text of a kernel shows, and reading it
* `KernelText.scopes` — the names around the line that stores the result
-/

namespace DistributedVector

namespace Text

/-- Whether identifiers can contain the character. -/
def isWordChar (c : Char) : Bool := isIdentifierStart c || isIdentifierRest c

/-- The rest of a list behind an expected beginning. -/
def behind? {α : Type} [DecidableEq α] : List α → List α → Option (List α)
  | [], s => some s
  | _ :: _, [] => none
  | c :: expected, d :: s => if c = d then behind? expected s else none

/-- The lines of a text, between its line breaks. -/
def lines : List Char → List (List Char)
  | [] => [[]]
  | c :: s =>
    if c = '\n' then [] :: lines s
    else
      match lines s with
      | [] => [[c]]
      | line :: rest => (c :: line) :: rest

end Text

open Text

/-! ## Terms -/

/-- What the text of a term shows: operators, names of functions with their arguments, and
leaves. -/
inductive Reading (α : Type)
  | leaf (a : α)
  | unary (op : UnaryOp) (operand : Reading α)
  | binary (op : BinaryOp) (left right : Reading α)
  | call (name : String) (args : List (Reading α))

/-- A parameter in the text of a term: itself, or its entry at the index. -/
structure Mention where
  kind : ParameterKind
  name : String
  deriving DecidableEq

namespace Reading

/-- Reads the symbol of an operator. -/
def readSymbol {ω : Type} (symbol : ω → String) (all : List ω) (s : List Char) :
    Option (ω × List Char) :=
  all.findSome? fun op => (behind? (symbol op).toList s).map fun s => (op, s)

/-- Reads a name, if one stands there. -/
def readName (s : List Char) : Option (String × List Char) :=
  let name := String.ofList (s.takeWhile isWordChar)
  if isIdentifier name then some (name, s.dropWhile isWordChar) else none

mutual

/-- Reads a term from the front of a text. No more than `fuel` terms are read inside each other. -/
def readTerm : Nat → List Char → Option (Reading Mention × List Char)
  | 0, _ => none
  | fuel + 1, s =>
    match behind? ['('] s with
    | some s =>
      match readSymbol UnaryOp.symbol UnaryOp.all s with
      | some (op, s) => do
        let (t, s) ← readTerm fuel s
        return (.unary op t, ← behind? [')'] s)
      | none => do
        let (l, s) ← readTerm fuel s
        let (op, s) ← readSymbol BinaryOp.symbol BinaryOp.all (← behind? [' '] s)
        let (r, s) ← readTerm fuel (← behind? [' '] s)
        return (.binary op l r, ← behind? [')'] s)
    | none => do
      let (name, s) ← readName s
      match behind? ['('] s with
      | some s =>
        let (args, s) ← readArgs fuel s
        return (.call name args, s)
      | none =>
        match behind? "[idx]".toList s with
        | some s => return (.leaf ⟨.vector, name⟩, s)
        | none => return (.leaf ⟨.scalar, name⟩, s)

/-- Reads arguments and the parenthesis that closes them. -/
def readArgs : Nat → List Char → Option (List (Reading Mention) × List Char)
  | 0, _ => none
  | fuel + 1, s =>
    match behind? [')'] s with
    | some s => some ([], s)
    | none => do
      let (t, s) ← readTerm fuel s
      let (rest, s) ← readMore fuel s
      return (t :: rest, s)

/-- Reads further arguments and the parenthesis that closes them. -/
def readMore : Nat → List Char → Option (List (Reading Mention) × List Char)
  | 0, _ => none
  | fuel + 1, s =>
    match behind? [')'] s with
    | some s => some ([], s)
    | none => do
      let (t, s) ← readTerm fuel (← behind? [',', ' '] s)
      let (rest, s) ← readMore fuel s
      return (t :: rest, s)

end

/-- The reading of a text that is one term. -/
def read (s : String) : Option (Reading Mention) :=
  match readTerm (s.toList.length + 1) s.toList with
  | some (t, []) => some t
  | _ => none

end Reading

/-! ## Names -/

/-- What a name in kernel text can mean: a value, a function or the kernel. -/
inductive Meaning (φ : Type)
  | value
  | function (g : φ)
  | kernel
  deriving DecidableEq

/-- Names with their meanings. -/
abbrev Scope (φ : Type) := List (String × Meaning φ)

/-- All that a name is declared as in the innermost scope that declares it. -/
def meanings {φ : Type} (name : String) : List (Scope φ) → List (Meaning φ)
  | [] => []
  | scope :: outer =>
    match scope.filter (·.1 = name) with
    | [] => meanings name outer
    | found => found.map (·.2)

/-- A function as a device knows it: a builtin one, or one by the text that declares it. -/
inductive Callee
  | builtin (b : Builtin)
  | declared (declaration : String)
  deriving DecidableEq

/-- What a device knows of a function. -/
def Function.callee : Function → Callee
  | builtin b => .builtin b
  | user u => .declared u.declaration

/-! ## Kernels -/

/-- What the text of a kernel shows. -/
structure KernelText where
  declarations : List String
  name : String
  /-- the parameters behind the length and the result -/
  parameters : List Mention
  /-- what is stored at the index -/
  term : Reading Mention

namespace KernelText

/-- Whether a declaration starts with the line. -/
def declares (line : List Char) : Bool := "__device__ ".toList.isPrefixOf line

/-- How the line starts that names the kernel. -/
def opening : List Char := "extern \"C\" __global__ void ".toList

/-- Whether the line names the kernel. -/
def opens (line : List Char) : Bool := opening.isPrefixOf line

/-- Lines in groups, each from a line that starts a declaration to the next one. -/
def groups : List (List Char) → List (List (List Char))
  | [] => []
  | line :: rest =>
    if declares line then (line :: rest.takeWhile (!declares ·)) :: groups rest else groups rest

/-- The declaration in a group of lines, behind which there is an empty line. -/
def declaration (group : List (List Char)) : String :=
  String.ofList (['\n'].intercalate group.dropLast)

/-- The name that a declaration gives: the word in front of its parameters. -/
def declaredName (declaration : String) : String :=
  let front := declaration.toList.takeWhile (· ≠ '(')
  String.ofList (front.reverse.takeWhile isWordChar).reverse

/-- Reads the line that names the kernel. -/
def readOpening (line : List Char) : Option String := do
  match (← behind? opening line).reverse with
  | '(' :: name => return String.ofList name.reverse
  | _ => none

/-- Reads an entry of the signature: the word at its end, behind a star if it is a vector. -/
def readEntry (line : List Char) : Mention :=
  let back := line.reverse.dropWhile (· = ',')
  ⟨if (back.dropWhile isWordChar).head? = some '*' then .vector else .scalar,
    String.ofList (back.takeWhile isWordChar).reverse⟩

/-- Reads the entries of the signature behind the length and the result. -/
def readSignature (lines : List (List Char)) : Option (List Mention) :=
  match lines.map readEntry with
  | ⟨.scalar, "n"⟩ :: ⟨.vector, "res"⟩ :: parameters => some parameters
  | _ => none

/-- Reads the line that stores the result at the index. -/
def readResult (line : List Char) : Option (Reading Mention) := do
  let s ← behind? "        res[idx] = ".toList line
  match Reading.readTerm (s.length + 1) s with
  | some (t, [';']) => some t
  | _ => none

/-- The two lines of a loop over all indices below the length, by as many as there are threads. -/
def loop : List (List Char) :=
  ["    for (unsigned long long idx = blockIdx.x * (unsigned long long)blockDim.x + threadIdx.x;",
    "         idx < n; idx += (unsigned long long)blockDim.x * gridDim.x) \x7b"].map String.toList

/-- Reads a kernel, from its last line to its first one. -/
def read (s : String) : Option KernelText := do
  let result :: rest ← behind? [[], "\x7d".toList, "    \x7d".toList]
    (lines s.toList).reverse | none
  let term ← readResult result
  let rest ← behind? (loop.reverse ++ ["\x7b".toList, ")".toList]) rest
  let parameters ← readSignature (rest.takeWhile (!opens ·)).reverse
  let line :: front := rest.dropWhile (!opens ·) | none
  return ⟨(groups front.reverse).map declaration, ← readOpening line, parameters, term⟩

/-- The scopes around the line that stores the result, from the inside: the loop, the signature, the
file and what is known without a declaration. -/
def scopes (k : KernelText) : List (Scope Callee) :=
  [[("idx", .value)],
    ("n", .value) :: ("res", .value) :: k.parameters.map fun m => (m.name, .value),
    k.declarations.map (fun d => (declaredName d, .function (.declared d))) ++ [(k.name, .kernel)],
    Builtin.all.map fun b => (b.name, .function (.builtin b))]

end KernelText

end DistributedVector
