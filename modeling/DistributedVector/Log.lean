import DistributedVector.Key
import DistributedVector.Number.Decimal
import DistributedVector.Partition.Basic

/-!
# Log records

What the library reports about its decisions, as data: partitions made, strategies kept, weights
measured, kernels compiled.

## Main definitions

* `LogRecord` with `severity`, `channel` and `text`
-/

namespace DistributedVector

/-- How important a record is. -/
inductive Severity
  | debug | warning
  deriving DecidableEq, Repr

/-- The name of a severity, as logs print it. -/
def Severity.name : Severity → String
  | debug => "DEBUG"
  | warning => "WARNING"

/-- A report. -/
inductive LogRecord
  /-- a strategy has split `n` elements over a number of devices -/
  | partitioned (n : Int) (devices : Nat) (boundaries : List Int)
  /-- a strategy is refused because one is in force -/
  | strategyKept
  /-- the throughput of a device has been measured -/
  | weighed (device : String) (weight : Float)
  /-- the text of a kernel that is about to be compiled -/
  | generated (kernel text : String)
  /-- a kernel has been compiled for a context -/
  | compiled (kernel : String) (context : Key) (workgroup : Int)

namespace LogRecord

/-- The severity of a record. -/
def severity : LogRecord → Severity
  | strategyKept => .warning
  | _ => .debug

/-- The channel that a record is reported on. -/
def channel : LogRecord → String
  | partitioned .. | strategyKept | weighed .. => "devvec_runtime.partition"
  | generated .. | compiled .. => "devvec_runtime.kernel_cache"

/-- The wording of a record. -/
def text : LogRecord → String
  | partitioned n devices boundaries =>
    "Partitioned " ++ toString n ++ " elements over " ++ toString devices ++ " device(s): " ++
      renderBoundaries boundaries
  | strategyKept => "Partitioning function is already set and will be left as is."
  | weighed device weight =>
    "Vector throughput weight of " ++ device ++ ": " ++ Binary64.fixed 3 weight
  | generated kernel text => "Kernel source for " ++ kernel ++ ":\n" ++ text
  | compiled kernel context workgroup =>
    "Compiled " ++ kernel ++ " for context " ++ context.render ++ " (workgroup size " ++
      toString workgroup ++ ")"

/-- A record as logs print it. -/
def render (r : LogRecord) : String := r.severity.name ++ " " ++ r.channel ++ ": " ++ r.text

end LogRecord

end DistributedVector
