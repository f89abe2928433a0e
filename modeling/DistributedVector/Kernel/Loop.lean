/-!
# The loop of a kernel

The threads of a launch share the indices of a slice. A thread starts at its own number in the whole
grid and goes on by the number of threads of the grid, as long as the index is below the length of
the slice. Both numbers are computed from what a thread knows of itself, which are numbers of 32
bits; one number of each product is widened to 64 bits, and so is the product.

## Main definitions

* `Register`, `IndexTerm` — what a thread knows, and sums of products of it
* `StrideLoop`, `strideLoop` — the loop
* `StrideLoop.lines` — the loop around a statement in kernel text
-/

namespace DistributedVector

/-- What a thread knows of itself: the number of its workgroup, its number in the workgroup, the
number of threads in a workgroup, and the number of workgroups. -/
inductive Register
  | block | thread | blockSize | gridSize
  deriving DecidableEq, Repr

/-- The name of a register in kernel text. -/
def Register.name : Register → String
  | block => "blockIdx.x"
  | thread => "threadIdx.x"
  | blockSize => "blockDim.x"
  | gridSize => "gridDim.x"

/-- A register as a factor of a product, widened to 64 bits or as it is. -/
structure Factor where
  register : Register
  wide : Bool := false
  deriving DecidableEq, Repr

/-- A factor in kernel text. -/
def Factor.text (x : Factor) : String :=
  (if x.wide then "(unsigned long long)" else "") ++ x.register.name

/-- A sum of products. -/
abbrev IndexTerm := List (List Factor)

/-- A sum of products in kernel text. -/
def IndexTerm.text (e : IndexTerm) : String :=
  " + ".intercalate (e.map fun product => " * ".intercalate (product.map Factor.text))

/-- A loop over indices below the length of the slice: the first index, and by how much it grows. -/
structure StrideLoop where
  first : IndexTerm
  stride : IndexTerm

/-- The lines of a loop around a statement. -/
def StrideLoop.lines (l : StrideLoop) (statement : String) : List String :=
  ["    for (unsigned long long idx = " ++ l.first.text ++ ";",
   "         idx < n; idx += " ++ l.stride.text ++ ") \x7b",
   "        " ++ statement,
   "    \x7d"]

/-- From the number of the thread by the number of threads. -/
def strideLoop : StrideLoop where
  first := [[⟨.block, false⟩, ⟨.blockSize, true⟩], [⟨.thread, false⟩]]
  stride := [[⟨.blockSize, true⟩, ⟨.gridSize, false⟩]]

end DistributedVector
