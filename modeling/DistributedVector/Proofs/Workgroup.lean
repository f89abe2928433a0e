import DistributedVector.Proofs.Halving
import DistributedVector.Proofs.Refinement

/-!
# Limits of workgroups

A workgroup is chosen when a kernel is compiled, for the devices of the context in the list that
needs the kernel first, and then serves every device of the context. It is the one that fits the
device with the smallest limit in that list. So a launch keeps the limits of its device if the
device is in the list, and otherwise exactly if a device in the list has to be given a workgroup
small enough.

## Main definitions

* `Device.limit`, `Device.workgroup` — limits, and what is chosen for a device alone
* `Covering` — lists of devices each of which holds back the workgroups for all the others
* `Fleet.within` — devices that are given workgroups within their limits

## Main results

* `KernelCache.workgroupFor_le_iff` — when a workgroup is within a bound
* `covering_iff` — covering lists are those whose workgroups are within all limits
* `Reachable.launch_le_limit` — all launches are within the limits of their devices
-/

namespace DistributedVector

/-- The largest workgroup that a device runs a kernel with. -/
def Device.limit (d : Device) (source : KernelSource) : Int :=
  min d.maxWorkgroup (d.kernelMaxWorkgroup source)

/-- The workgroup that is chosen if a kernel is compiled for a device alone. -/
def Device.workgroup (d : Device) (config : SessionConfig) (source : KernelSource) : Int :=
  halveTo (d.limit source) config.maxWorkgroup

/-- The workgroup for a group of devices is within a bound if that of one of them is. -/
theorem KernelCache.workgroupFor_le_iff {config : SessionConfig} {hardware : Hardware}
    {group : List DeviceId} {source : KernelSource} {bound : Int} (hgroup : group ≠ []) :
    workgroupFor config hardware group source ≤ bound ↔
      ∃ d ∈ group, (hardware d).workgroup config source ≤ bound := by
  have hlimits : group.map (fun d => (hardware d).limit source) ≠ [] := by simpa using hgroup
  obtain ⟨l, hl, hleast, hselect⟩ := selectWorkgroup_eq config.maxWorkgroup hlimits
  have hchosen : workgroupFor config hardware group source = halveTo l config.maxWorkgroup :=
    hselect
  obtain ⟨d, hd, rfl⟩ := List.mem_map.mp hl
  rw [hchosen]
  constructor
  · exact fun h => ⟨d, hd, h⟩
  · rintro ⟨e, he, h⟩
    exact Int.le_trans (halveTo_mono (hleast _ (List.mem_map_of_mem he))) h

/-- The same for the devices of one context in a list. -/
theorem KernelCache.workgroupFor_filter_le_iff {config : SessionConfig} {hardware : Hardware}
    {devices : List DeviceId} {first : DeviceId} {source : KernelSource} {bound : Int}
    (hfirst : first ∈ devices) :
    workgroupFor config hardware
        (devices.filter fun d => (hardware d).context = (hardware first).context) source ≤ bound ↔
      ∃ e ∈ devices, (hardware e).context = (hardware first).context ∧
        (hardware e).workgroup config source ≤ bound := by
  have hgroup : first ∈ devices.filter fun d =>
    (hardware d).context = (hardware first).context := by
    simpa using hfirst
  rw [workgroupFor_le_iff (List.ne_nil_of_mem hgroup)]
  simp [and_assoc]

/-- The lists of devices in use cover one another: if a device shares its context with devices of a
list but is not in the list, it is within its limits to run the workgroup of one of them. -/
def Covering (hardware : Hardware) (used : List DeviceId → Prop) : Prop :=
  ∀ (config : SessionConfig) (source : KernelSource) (devices others : List DeviceId)
    (first d : DeviceId), config.validate = .ok config → used devices → first ∈ devices →
    used others → d ∈ others → (hardware d).context = (hardware first).context → d ∉ devices →
    ∃ e ∈ devices, (hardware e).context = (hardware first).context ∧
      (hardware e).workgroup config source ≤ (hardware d).limit source

/-- Lists cover one another exactly if a workgroup that is chosen for devices in one of them is
within the limits of every device that may come to run the kernel. -/
theorem covering_iff {hardware : Hardware} {used : List DeviceId → Prop}
    (hlimits : ∀ d source, 1 ≤ (hardware d).limit source) :
    Covering hardware used ↔ ∀ (config : SessionConfig) (source : KernelSource)
      (devices others : List DeviceId) (first d : DeviceId), config.validate = .ok config →
      used devices → first ∈ devices → used others → d ∈ others →
      (hardware d).context = (hardware first).context →
      KernelCache.workgroupFor config hardware
        (devices.filter fun d => (hardware d).context = (hardware first).context) source ≤
          (hardware d).limit source := by
  constructor
  · intro h config source devices others first d hconfig hdevices hfirst hothers hd hcontext
    rw [KernelCache.workgroupFor_filter_le_iff hfirst]
    by_cases hmem : d ∈ devices
    · exact ⟨d, hmem, hcontext, halveTo_le (hlimits d source)⟩
    · exact h config source devices others first d hconfig hdevices hfirst hothers hd hcontext hmem
  · intro h config source devices others first d hconfig hdevices hfirst hothers hd hcontext _
    exact (KernelCache.workgroupFor_filter_le_iff hfirst).mp
      (h config source devices others first d hconfig hdevices hfirst hothers hd hcontext)

/-- Devices that run every kernel with workgroups within their limits. -/
def Fleet.within (hardware : Hardware) (used : List DeviceId → Prop)
    (hlimits : ∀ d source, 1 ≤ (hardware d).limit source) (hcovering : Covering hardware used) :
    Fleet where
  hardware
  inUse := used
  suits d source workgroup := workgroup ≤ (hardware d).limit source
  chosen := (covering_iff hlimits).mp hcovering

section

variable {σ V : Type} {A : Arithmetic V} {h : Handler σ} {view : σ → Memory} {hardware : Hardware}
  {used : List DeviceId → Prop} {S : Store} {x : σ} {op : Operation}

/-- Where the lists of devices in use cover one another, no launch exceeds the limits of its
device. -/
theorem Reachable.launch_le_limit (hlimits : ∀ d source, 1 ≤ (hardware d).limit source)
    (hcovering : Covering hardware used)
    (meets : h.Meets view (deviceContract A (Fleet.within hardware used hlimits hcovering).suits))
    (hreach : Reachable h view (.within hardware used hlimits hcovering) S x)
    (hfits : op.Fits (S.plain (view x))) (huses : op.Uses (.within hardware used hlimits hcovering))
    {d : DeviceId} {source : KernelSource} {grid workgroup : Int} {args : List Argument}
    (hcall : .launch d source grid workgroup args ∈ (op.run.runFrom S).calls h x) :
    workgroup ≤ min (hardware d).maxWorkgroup ((hardware d).kernelMaxWorkgroup source) := by
  have hall := Operation.run_ensures (A := A) (hreach.valid meets) (.self _ _) hfits huses
  obtain ⟨y, hallowed⟩ := Program.Ensures.of_mem_calls meets hall hcall
  exact hallowed.1

end

namespace Sample

theorem limit_eq (d : DeviceId) (source : KernelSource) :
    (hardware d).limit source = if d = 0 then 1024 else 256 := by
  by_cases h : d = 0 <;> simp [Device.limit, hardware, h]

theorem limit_pos (d : DeviceId) (source : KernelSource) : 1 ≤ (hardware d).limit source := by
  rw [limit_eq]
  split <;> omega

/-- Lists that the second device is in cover one another. -/
theorem covering : Covering hardware fun devices => 1 ∈ devices := by
  intro config source devices others first d hconfig hdevices hfirst hothers hd hcontext hmem
  have hlimit : (hardware 1).limit source ≤ (hardware d).limit source := by
    rw [limit_eq, limit_eq, if_neg Nat.one_ne_zero]
    split <;> omega
  exact ⟨1, hdevices, rfl, Int.le_trans (halveTo_le (limit_pos 1 source)) hlimit⟩

/-- One vector of three integers on both devices. -/
def integers : Store × Machine.Executing := after three (store, machine)

/-- The vector is assigned its negation. -/
def negation : Operation := .assign 0 (.expr (.unary UnaryOp.neg.tag (.vector 0)))

/-- Two devices that are used in lists with the second one. -/
def fleet : Fleet := .within hardware (1 ∈ ·) limit_pos covering

theorem reachable_integers :
    Reachable Machine.Executing.handle Machine.Executing.memory fleet integers.1 integers.2 :=
  reachable_after (reachable_store rfl) (Plain.offers_count _ _)
    (List.mem_cons_of_mem 0 List.mem_cons_self)

/-- Whether a call is a launch. -/
def launches : Call → Bool
  | .launch .. => true
  | _ => false

end Sample

/-- A vector on both devices is negated. -/
theorem Reachable.launch_le_limit_sample : ∃ d source grid workgroup args,
    .launch d source grid workgroup args ∈ (Sample.negation.run.runFrom Sample.integers.1).calls
      Machine.Executing.handle Sample.integers.2 ∧
    workgroup ≤ min (Sample.hardware d).maxWorkgroup
      ((Sample.hardware d).kernelMaxWorkgroup source) := by
  have hsome : ((Sample.negation.run.runFrom Sample.integers.1).calls Machine.Executing.handle
      Sample.integers.2).any Sample.launches = true := by decide +kernel
  have hfits : Sample.negation.Fits (Sample.integers.1.plain Sample.integers.2.memory) := trivial
  obtain ⟨c, hc, hlaunch⟩ := List.any_eq_true.mp hsome
  cases c with
  | launch d source grid workgroup args =>
    exact ⟨d, source, grid, workgroup, args, hc, Reachable.launch_le_limit Sample.limit_pos
      Sample.covering (Machine.Executing.meets _) Sample.reachable_integers hfits trivial hc⟩
  | _ => cases hlaunch

/-- A vector on the first device is negated, and another one on the second device is there. -/
def Sample.apart : Store × Machine.Executing :=
  let alone d := .construct ⟨[d], .count 3, none, .exact .int32, .readWrite, 0, none⟩
  after negation (after (alone 1) (after (alone 0) (store, machine)))

-- the lists of the two devices do not cover one another
example : (((Operation.assign 1 (.expr (.unary UnaryOp.neg.tag (.vector 1)))).run.runFrom
    Sample.apart.1).calls Machine.Executing.handle Sample.apart.2).any (fun
      | .launch d _ _ workgroup _ => (Sample.hardware d).maxWorkgroup < workgroup
      | _ => false) = true := by
  decide +kernel

end DistributedVector
