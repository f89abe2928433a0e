import DistributedVector.Expr.Product
import DistributedVector.Store.Basic

/-!
# Assignment

A vector takes the elements of another vector, a scalar, or the values of an expression. Vectors of
one type are copied on the devices; everything else is computed by one kernel for each context.
Products with linear operators at the top of an expression are applied after the kernel, one after
the other. All vectors of an expression have to be laid out like the target.

## Main definitions

* `Vector.copyShards` — a copy on the devices
* `Vector.checkLayouts` — the vectors of an expression have to be laid out like the target
* `Store.evaluate`, `Store.copyFrom`, `Store.applyProduct`
* `Store.assign`, `Store.update` — assignment, plain and combined with an operator
-/

namespace DistributedVector

namespace Vector

/-- Copies the shards of a vector that is laid out alike, numbered from `index`. -/
def copyShards : Nat → List (Shard × Shard) → Task Descriptor Unit
  | _, [] => return ()
  | index, (source, mine) :: rest => do
    unless mine.length = 0 do
      let e ← issue (Program.ask
        (.copy mine.device source.buffer mine.buffer mine.length 0 0))
      modify (·.setEvent index e)
    copyShards (index + 1) rest

/-- The refusal of an assignment to a vector that kernels must not write. -/
def readOnlyTarget : DeviceFault :=
  .operation ⟨"assign", .unsupported, "destination vector is read-only", none⟩

/-- Refuses the first vector that is laid out differently. -/
def checkLayouts (target : Descriptor) : List Descriptor → Except VectorFault Unit
  | [] => .ok ()
  | v :: rest => do
    target.checkLayout v
    checkLayouts target rest

end Vector

namespace Store

/-- Looks up the vectors of a list of references. -/
def vectorsOf : List VectorId → Task Store (List Descriptor)
  | [] => return []
  | v :: rest => do return (← vector v) :: (← vectorsOf rest)

/-- Computes an expression into a vector: a target that kernels must not write is refused, then a
product inside the expression, then vectors that are laid out differently. -/
def evaluate (v : VectorId) (e : Expr VectorId) : Task Store Unit := do
  let target ← vector v
  if target.access = .readOnly then throw (.device Vector.readOnlyTarget)
  let f ← orFault .expr e.formula
  orFault .vector (Vector.checkLayouts target (← vectorsOf f.vectors))
  if target.size = 0 then return
  let table := (← get).vectors
  let resolved := f.map fun w => table.getD w target
  let kernels ← onSession target.session
    (Session.kernelsFor target.devices (resolved.map fun d => .element d.type)
      (some (.element target.type)))
  let current ← session target.session
  onVector v (Vector.dispatch current kernels resolved)

/-- Takes the elements of another vector, which has to be laid out alike; elements of another type
are converted by a kernel. -/
def copyFrom (v w : VectorId) : Task Store Unit := do
  if v = w then return
  let target ← vector v
  let source ← vector w
  orFault .vector (target.checkLayout source)
  if source.type ≠ target.type then evaluate v (.vector w)
  else onVector v (Vector.copyShards 0 (source.shards.zip target.shards))

/-- The sum of two arrays, entry by entry. -/
def addEntries (a b : Array Float) : Array Float := a.zipWith (· + ·) b

/-- Multiplies a vector by a linear operator, times a sign, into a target, which takes the product
or adds it to its elements. -/
def applyProduct (v : VectorId) (p : Product VectorId) (sign : Sign) (append : Bool) :
    Task Store Unit := do
  let target ← vector v
  let x ← vector p.vector
  if p.operator.rows ≠ target.size ∨ p.operator.cols ≠ x.size then
    throw (.vector (.operatorShape p.operator.rows p.operator.cols x.size target.size))
  Task.perform (Program.ask (.multiply p.operator.name sign.toFloat append))
  let xs ← onVector p.vector Vector.readAll
  match p.operator.apply sign.toFloat (xs.values.map Scalar.toFloat) target.size with
  | none => throw (.vector .operandTooShort)
  | some product =>
    let sum ←
      if append then do
        let ys ← onVector v Vector.readAll
        pure (addEntries product (ys.values.map Scalar.toFloat))
      else pure product
    onVector v (Vector.write 0 target.size
      ⟨.element .float64, [sum.size], sum.map Scalar.float⟩ true)

/-- Applies products one after the other; the first one replaces the elements unless `append`. -/
def applyProducts (v : VectorId) (append : Bool) : List (Sign × Product VectorId) → Task Store Unit
  | [] => return ()
  | (sign, p) :: rest => do
    applyProduct v p sign append
    applyProducts v true rest

/-- Assigns to a vector. A vector assigned to itself stays as it is. -/
def assign (v : VectorId) (source : Operand VectorId) : Task Store Unit := do
  match source with
  | .vector w => copyFrom v w
  | source =>
    let e ← orFault .expr source.toExpr
    let (rest, products) := e.split
    match rest with
    | none => pure ()
    | some (.vector w) => copyFrom v w
    | some e => evaluate v e
    applyProducts v rest.isSome products

/-- Assigns to a vector its combination with a source. -/
def update (v : VectorId) (op : BinaryOp) (source : Operand VectorId) : Task Store Unit := do
  assign v (← orFault .expr (Operand.binary op (.vector v) source))

end Store

end DistributedVector
