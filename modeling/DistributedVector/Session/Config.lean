/-!
# Session settings

The settings of a session bound the workgroups of its kernels and the number of workgroups that
each compute unit of a graphics device gets.

## Main definitions

* `SessionConfig`, `SessionConfig.validate`
-/

namespace DistributedVector

/-- Settings for launches and logs. -/
structure SessionConfig where
  maxWorkgroup : Int := 1024
  wavesPerUnit : Int := 4
  logsSource : Bool := true

/-- Why settings are refused. -/
inductive ConfigFault
  | workgroup (size : Int)
  | waves (count : Int)
  deriving DecidableEq, Repr

/-- The wording of a refusal. -/
def ConfigFault.message : ConfigFault → String
  | workgroup n => "max_workgroup_size must be a power of two, got " ++ toString n
  | waves n => "gpu_waves_per_unit must be positive, got " ++ toString n

/-- Whether an integer is a power of two. -/
def isPowerOfTwo (n : Int) : Bool := 1 ≤ n && Nat.pow 2 n.toNat.log2 = n.toNat

/-- Accepts settings whose largest workgroup is a power of two and whose number of workgroups for
each compute unit is positive. -/
def SessionConfig.validate (c : SessionConfig) : Except ConfigFault SessionConfig :=
  if !isPowerOfTwo c.maxWorkgroup then .error (.workgroup c.maxWorkgroup)
  else if c.wavesPerUnit < 1 then .error (.waves c.wavesPerUnit)
  else .ok c

end DistributedVector
