import DistributedVector.Device.Basic
import DistributedVector.Element.Scalar
import DistributedVector.Expr.Fault
import DistributedVector.Session.Config
import DistributedVector.Template.Basic
import DistributedVector.Vector.Fault

/-!
# Faults

Every way in which an operation can fail, by the part that refuses it, with its wording and the kind
of mistake that it points to.

## Main definitions

* `Fault`, `Fault.message`
* `FaultKind`, `Fault.kind`
-/

namespace DistributedVector

/-- Why an operation fails. -/
inductive Fault
  | expr (fault : ExprFault)
  | number (fault : NumberFault)
  | partition (fault : PartitionFault)
  | config (fault : ConfigFault)
  | device (fault : DeviceFault)
  | vector (fault : VectorFault)
  | copy (fault : CopyFault)
  | host (fault : HostFault)
  | template (fault : TemplateFault)
  /-- a kernel without threads in a workgroup -/
  | noThreads
  /-- an average over nothing -/
  | noIterations
  /-- the library for graphics devices is missing -/
  | noGraphics
  /-- no graphics device is present -/
  | noGraphicsDevice

instance : Coe ExprFault Fault := ⟨.expr⟩
instance : Coe TagFault Fault := ⟨fun f => .expr (.tag f)⟩
instance : Coe NumberFault Fault := ⟨.number⟩
instance : Coe PartitionFault Fault := ⟨.partition⟩
instance : Coe ConfigFault Fault := ⟨.config⟩
instance : Coe DeviceFault Fault := ⟨.device⟩
instance : Coe VectorFault Fault := ⟨.vector⟩
instance : Coe CopyFault Fault := ⟨.copy⟩
instance : Coe HostFault Fault := ⟨.host⟩
instance : Coe TemplateFault Fault := ⟨.template⟩

/-- The kinds of mistakes. -/
inductive FaultKind
  /-- a value of the wrong type -/
  | type
  /-- a value that lacks an ability -/
  | ability
  /-- a value out of the question -/
  | value
  /-- a position outside a collection -/
  | index
  /-- a name that stands for nothing -/
  | name
  | overflow
  | zeroDivision
  /-- surroundings that lack something -/
  | surroundings
  | build
  | operation
  | shape
  | layout
  deriving DecidableEq, Repr

/-- The kind of a fault of an expression. -/
def ExprFault.kind : ExprFault → FaultKind
  | tag _ => .name
  | notBuiltin _ | functionName _ => .value
  | _ => .type

/-- The kind of a number that does not fit. -/
def NumberFault.kind : NumberFault → FaultKind
  | overflow => .overflow
  | notNumeric => .value
  | notConvertible => .type

/-- The kind of a fault of a partition. -/
def PartitionFault.kind : PartitionFault → FaultKind
  | noBoundary => .index
  | noAlignment => .zeroDivision
  | overflow => .overflow
  | unknownDevice => .name
  | boundaryCount .. | span .. | decreasing _ | noWeight | notANumber => .value

/-- The kind of a refusal by a vector. -/
def VectorFault.kind : VectorFault → FaultKind
  | index _ | range .. | operandTooShort | noSuchDevice | noContext => .index
  | layout .. => .layout
  | operatorShape .. => .shape
  | noSize => .type
  | unknownVector | unknownSession => .name
  | _ => .value

/-- The kind of a refused copy. -/
def CopyFault.kind : CopyFault → FaultKind
  | noVector | mixedRange | sameSide | incomparable => .type
  | noVectorPosition => .ability
  | hostTooShort => .index
  | sourceSize .. | destination _ | reversed => .value

/-- The kind of a refusal by a host array. -/
def HostFault.kind : HostFault → FaultKind
  | axis => .index
  | noLength => .type
  | shape | zeroStride => .value

/-- The kind of a fault of a template. -/
def TemplateFault.kind : TemplateFault → FaultKind
  | openKey | unfinished | tooWide | conversion _ => .value
  | widthFromValue | noElements | noValue | unusedValue | unsuitable _ => .type
  | noCharacter => .overflow

namespace Fault

/-- The wording of a fault, where it has one of its own. -/
def message : Fault → Option String
  | expr f => f.message
  | partition f => f.message
  | config f => some f.message
  | device f => f.message
  | vector f => f.message
  | copy f => f.message
  | noGraphics => some "CuPy is not installed. Install with: pip install 'devvec[cuda]'"
  | noGraphicsDevice => some "No CUDA device found"
  | number _ | host _ | template _ | noThreads | noIterations => none

/-- The kind of mistake that a fault points to. -/
def kind : Fault → FaultKind
  | expr f => f.kind
  | number f => f.kind
  | partition f => f.kind
  | config _ => .value
  | device (.build _) => .build
  | device (.operation _) => .operation
  | device .severalRows => .value
  | vector f => f.kind
  | copy f => f.kind
  | host f => f.kind
  | template f => f.kind
  | noThreads | noIterations => .zeroDivision
  | noGraphics | noGraphicsDevice => .surroundings

end Fault

end DistributedVector
