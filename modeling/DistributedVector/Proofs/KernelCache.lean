import DistributedVector.Proofs.Devices
import DistributedVector.Proofs.ShapeKey
import DistributedVector.Session.Basic
import Mathlib.Data.List.Induction

/-!
# Cached kernels are right

Whatever kernels a session has compiled so far, a kernel taken from its cache serves the formula
that asks for it, and its workgroup suits every device of its context on which it may come to be
run. The second half depends on how the workgroups of a fleet of devices turn out: they are chosen
for the devices of one list and then used for all devices of the context.

## Main definitions

* `Fleet` — devices, the lists of them that are used, and the workgroups that suit them
* `KernelCache.Sound`, `Session.Sound` — kernels in the cache are right

## Main results

* `groupByContext_eq`, `KernelCache.grouped_groupByContext` — the groups of a list of devices
* `Session.kernelsFor_ensures` — every context gets a right kernel
-/

namespace DistributedVector

/-- Devices, the lists of devices that vectors are made on, and the workgroups that suit a device
and a kernel. A workgroup chosen for the devices of one context in a list suits every device of the
context that is in a list. -/
structure Fleet where
  hardware : Hardware
  inUse : List DeviceId → Prop
  suits : DeviceId → KernelSource → Int → Prop
  chosen : ∀ (config : SessionConfig) (source : KernelSource) (devices others : List DeviceId)
    (first d : DeviceId), config.validate = .ok config → inUse devices → first ∈ devices →
    inUse others → d ∈ others → (hardware d).context = (hardware first).context →
    suits d source (KernelCache.workgroupFor config hardware
      (devices.filter fun d => (hardware d).context = (hardware first).context) source)

section Groups

/-- Groups with distinct keys: a device is added to the group of its key, if there is one. -/
theorem addToGroup_map {keys : List Key} (hkeys : keys.Nodup) (c : Key) (d : DeviceId)
    (group : Key → List DeviceId) :
    addToGroup c d (keys.map fun k => (k, group k)) =
      if c ∈ keys then keys.map fun k => (k, if k = c then group k ++ [d] else group k)
      else (keys.map fun k => (k, group k)) ++ [(c, [d])] := by
  induction keys with
  | nil => rfl
  | cons k rest ih =>
    obtain ⟨hk, hrest⟩ := List.nodup_cons.mp hkeys
    rw [List.map_cons, addToGroup]
    by_cases h : k = c
    · -- later groups have other keys
      have hothers : ∀ k' ∈ rest, ¬ k' = c := fun k' hk' h' => hk ((h.trans h'.symm) ▸ hk')
      subst h
      rw [if_pos rfl, if_pos List.mem_cons_self, List.map_cons, if_pos rfl]
      refine congrArg _ (List.map_congr_left fun k' hk' => ?_)
      rw [if_neg (hothers k' hk')]
    · rw [if_neg h, ih hrest]
      by_cases hmem : c ∈ rest
      · rw [if_pos hmem, if_pos (List.mem_cons_of_mem k hmem), List.map_cons, if_neg h]
      · have hnot : c ∉ k :: rest := fun hc => (List.mem_cons.mp hc).elim (fun e => h e.symm) hmem
        rw [if_neg hmem, if_neg hnot, List.cons_append]

/-- The groups of a list of devices: for each context, the devices of that context. -/
theorem groupByContext_eq (contextOf : DeviceId → Key) (devices : List DeviceId) :
    ∃ keys : List Key, keys.Nodup ∧ (∀ k, k ∈ keys ↔ ∃ d ∈ devices, contextOf d = k) ∧
      groupByContext contextOf devices =
        keys.map fun k => (k, devices.filter fun d => contextOf d = k) := by
  induction devices using List.reverseRecOn with
  | nil => exact ⟨[], List.nodup_nil, by simp, rfl⟩
  | append_singleton devices d ih =>
    obtain ⟨keys, hnodup, hkeys, hgroups⟩ := ih
    have hstep : groupByContext contextOf (devices ++ [d]) =
        addToGroup (contextOf d) d (groupByContext contextOf devices) := by
      simp [groupByContext, List.foldl_append]
    have hfilter : ∀ k, (devices ++ [d]).filter (fun d => contextOf d = k) =
        if k = contextOf d then devices.filter (fun d => contextOf d = k) ++ [d]
        else devices.filter (fun d => contextOf d = k) := fun k => by
      rw [List.filter_append]
      by_cases h : k = contextOf d
      · simp [h]
      · simp [h, Ne.symm h]
    rw [hstep, hgroups, addToGroup_map hnodup]
    by_cases hmem : contextOf d ∈ keys
    · -- the device joins its group, and the contexts stay what they are
      refine ⟨keys, hnodup, fun k => ?_, ?_⟩
      · rw [hkeys]
        constructor
        · rintro ⟨d', hd', rfl⟩
          exact ⟨d', List.mem_append_left _ hd', rfl⟩
        · rintro ⟨d', hd', rfl⟩
          rcases List.mem_append.mp hd' with hd' | hd'
          · exact ⟨d', hd', rfl⟩
          · obtain rfl := List.mem_singleton.mp hd'
            exact (hkeys _).mp hmem
      · rw [if_pos hmem]
        exact List.map_congr_left fun k _ => by rw [hfilter]
    · refine ⟨keys ++ [contextOf d], ?_, fun k => ?_, ?_⟩
      · exact List.nodup_append.mpr ⟨hnodup, List.pairwise_singleton _ _, by
          rintro k hk k' hk' rfl
          exact hmem (List.mem_singleton.mp hk' ▸ hk)⟩
      · simp [hkeys, or_and_right, exists_or, eq_comm]
      · -- no device before has the new context
        have hnone : devices.filter (fun d' => contextOf d' = contextOf d) = [] :=
          List.filter_eq_nil_iff.mpr fun d' hd' h =>
            hmem ((hkeys _).mpr ⟨d', hd', of_decide_eq_true h⟩)
        rw [if_neg hmem, List.map_append, List.map_singleton, hfilter, if_pos rfl, hnone]
        refine congrArg (· ++ _) (List.map_congr_left fun k hk => ?_)
        have hne : k ≠ contextOf d := fun h => hmem (h ▸ hk)
        rw [hfilter, if_neg hne]

/-- Every device has a group for its context. -/
theorem mem_groupByContext {contextOf : DeviceId → Key} {devices : List DeviceId} {d : DeviceId}
    (hd : d ∈ devices) : ∃ group, (contextOf d, group) ∈ groupByContext contextOf devices := by
  obtain ⟨keys, -, hkeys, hgroups⟩ := groupByContext_eq contextOf devices
  rw [hgroups]
  exact ⟨_, List.mem_map_of_mem ((hkeys _).mpr ⟨d, hd, rfl⟩)⟩

/-- Groups of devices that share the context they are listed under. -/
def KernelCache.Grouped (hardware : Hardware) (groups : List (Key × List DeviceId)) : Prop :=
  ∀ g ∈ groups, ∃ first ∈ g.2.head?, (hardware first).context = g.1

theorem KernelCache.grouped_groupByContext (hardware : Hardware) (devices : List DeviceId) :
    Grouped hardware (groupByContext (fun d => (hardware d).context) devices) := by
  obtain ⟨keys, -, hkeys, hgroups⟩ := groupByContext_eq (fun d => (hardware d).context) devices
  rw [hgroups]
  intro g hg
  obtain ⟨k, hk, rfl⟩ := List.mem_map.mp hg
  obtain ⟨d, hd, hdk⟩ := (hkeys k).mp hk
  -- a context is listed only if some device has it, so its group has a first device
  have hmem : d ∈ devices.filter fun d => (hardware d).context = k := by simp [hd, hdk]
  obtain ⟨first, rest, hfilter⟩ := List.exists_cons_of_ne_nil (List.ne_nil_of_mem hmem)
  have hfirst : first ∈ devices.filter fun d => (hardware d).context = k :=
    hfilter ▸ List.mem_cons_self
  refine ⟨first, by rw [hfilter]; rfl, ?_⟩
  simpa using (List.mem_filter.mp hfirst).2

/-- A kernel that is listed first for its context, and others behind it for the contexts left. -/
theorem exists_lookup_cons {P : CompiledKernel → Prop} {k k' : Key} {kernel : CompiledKernel}
    {kernels : List (Key × CompiledKernel)} (hfirst : k' = k → P kernel)
    (hrest : k' ≠ k → ∃ kernel', kernels.lookup k' = some kernel' ∧ P kernel') :
    ∃ kernel', ((k, kernel) :: kernels).lookup k' = some kernel' ∧ P kernel' := by
  by_cases h : k' = k
  · exact ⟨kernel, by rw [h, List.lookup_cons_self], hfirst h⟩
  · have hne : (k' == k) = false := beq_eq_false_iff_ne.mpr h
    obtain ⟨kernel', hlookup, hkernel'⟩ := hrest h
    exact ⟨kernel', by rw [List.lookup_cons, hne]; exact hlookup, hkernel'⟩

end Groups

/-- A kernel has been generated from a formula of the given shape. -/
def KernelSource.HasShape (source : KernelSource) (shape : KernelShape) : Prop :=
  ∃ f result, ofFormula f (result.getD .unnamed) = .ok source ∧
    (f.kernelShape result).key = shape.key

/-- A compiled kernel has the shape that is asked for and suits the devices of a context. -/
structure CompiledKernel.Right (F : Fleet) (context : Key) (shape : KernelShape)
    (kernel : CompiledKernel) : Prop where
  shape : kernel.source.HasShape shape
  suits : ∀ devices, F.inUse devices → ∀ d ∈ devices, (F.hardware d).context = context →
    F.suits d kernel.source kernel.workgroup

/-- Every entry of a cache is right. -/
def KernelCache.Sound (F : Fleet) (c : KernelCache) : Prop :=
  ∀ e ∈ c.entries, e.kernel.Right F e.context e.shape

/-- A kernel that is found is kept for the context and the shape that are asked for. -/
theorem KernelCache.exists_mem_of_find? {c : KernelCache} {context : Key} {shape : KernelShape}
    {kernel : CompiledKernel} (hfind : c.find? context shape = some kernel) :
    ∃ e ∈ c.entries, e.context = context ∧ e.shape = shape ∧ e.kernel = kernel := by
  obtain ⟨e, he, hkernel⟩ := Option.map_eq_some_iff.mp hfind
  have hkey : e.context = context ∧ e.shape.key = shape.key := by simpa using List.find?_some he
  exact ⟨e, List.mem_of_find?_eq_some he, hkey.1, KernelShape.key_injective hkey.2, hkernel⟩

theorem KernelCache.Sound.find? {F : Fleet} {c : KernelCache} (h : c.Sound F) {context : Key}
    {shape : KernelShape} {kernel : CompiledKernel} (hfind : c.find? context shape = some kernel) :
    kernel.Right F context shape := by
  obtain ⟨e, he, rfl, rfl, rfl⟩ := exists_mem_of_find? hfind
  exact h e he

/-- What a session shares is right: it knows the devices, its settings are valid, its kernels are
right, and where throughputs may be measured, every device that is used may be used alone. -/
structure Session.Sound (F : Fleet) (s : Session) : Prop where
  hardware : s.hardware = F.hardware
  config : s.config.validate = .ok s.config
  cache : s.cache.Sound F
  alone : s.strategy = none ∨ s.strategy = some .performance →
    ∀ devices, F.inUse devices → ∀ d ∈ devices, F.inUse [d]

/-- The calls by which kernels are compiled: builds, and records for the log. -/
def Call.Compiles : Call → Prop
  | .build .. | .report _ => True
  | _ => False

namespace KernelCache

variable {V : Type} {A : Arithmetic V} {F : Fleet} {m : Memory} {c : KernelCache}
  {config : SessionConfig} {devices : List DeviceId} {f : Formula DataType}
  {result : Option DataType}

/-- Compiling a kernel changes nothing in the memory. -/
theorem build_ensures {τ : Type} {s : τ} {hardware : Hardware} {first : DeviceId}
    {group : List DeviceId} {type : DataType} :
    (build config hardware first group f type : Task τ CompiledKernel).Ensures
      (deviceContract A F.suits)
      (fun kernel s' m' => s' = s ∧ m' = m ∧ KernelSource.ofFormula f type = .ok kernel.source ∧
        kernel.workgroup = workgroupFor config hardware group kernel.source)
      (fun _ s' m' => s' = s ∧ m' = m) s m := by
  simp only [build, Task.ensures_bind, Task.ensures_pure, ensures_orFault, Task.ensures_ite]
  refine ⟨fun source hsource => ?_, fun _ _ => ⟨trivial, trivial⟩⟩
  exact ⟨fun _ => ensures_report (ensures_build (ensures_report ⟨rfl, rfl, hsource, trivial⟩)
      fun _ => ⟨rfl, rfl⟩),
    fun _ => ensures_build (ensures_report ⟨rfl, rfl, hsource, trivial⟩) fun _ => ⟨rfl, rfl⟩⟩

/-- Whatever the devices reply, a kernel that is returned is the one of the formula. -/
theorem build_generated {τ : Type} {s : τ} {hardware : Hardware} {first : DeviceId}
    {group : List DeviceId} {type : DataType} :
    (build config hardware first group f type : Task τ CompiledKernel).Ensures
      (.only Call.Compiles)
      (fun kernel s' _ => s' = s ∧ KernelSource.ofFormula f type = .ok kernel.source ∧
        kernel.workgroup = workgroupFor config hardware group kernel.source)
      (fun _ s' _ => s' = s) s () := by
  simp only [build, Task.ensures_bind, Task.ensures_pure, ensures_orFault, Task.ensures_ite, report,
    Task.ensures_perform, ensures_issue]
  refine ⟨fun source hsource => ⟨fun _ => ?_, fun _ => ?_⟩, fun _ _ => trivial⟩
  · exact ⟨trivial, fun _ _ _ => ⟨trivial, fun _ _ _ =>
      ⟨fun _ _ => ⟨trivial, fun _ _ _ => ⟨trivial, hsource, trivial⟩⟩, fun _ _ => trivial⟩⟩⟩
  · exact ⟨trivial, fun _ _ _ =>
      ⟨fun _ _ => ⟨trivial, fun _ _ _ => ⟨trivial, hsource, trivial⟩⟩, fun _ _ => trivial⟩⟩

/-- The kernel for the devices of one context in a list that is used is right. -/
theorem getOrBuild_ensures (hc : c.Sound F) (hconfig : config.validate = .ok config)
    (hdevices : F.inUse devices) {context : Key} :
    (getOrBuild config F.hardware
        (devices.filter fun d => (F.hardware d).context = context) f result).Ensures
      (deviceContract A F.suits)
      (fun kernel c' m' => c'.Sound F ∧ m' = m ∧ kernel.Right F context (f.kernelShape result))
      (fun _ c' m' => c'.Sound F ∧ m' = m) c m := by
  unfold getOrBuild
  split
  · exact ⟨hc, rfl⟩
  next group first rest hgroup =>
    have hfirst : first ∈ devices ∧ (F.hardware first).context = context := by
      have hmem : first ∈ devices.filter fun d => (F.hardware d).context = context :=
        hgroup ▸ List.mem_cons_self
      simpa using hmem
    obtain ⟨hfirst, rfl⟩ := hfirst
    simp only [Task.ensures_bind, Task.ensures_get]
    split
    next kernel hfind =>
      simp only [Task.ensures_bind, Task.ensures_modify, Task.ensures_pure]
      exact ⟨hc, trivial, hc.find? hfind⟩
    -- a kernel is built for the first device, whose workgroup suits all devices of the context
    next hfind =>
      simp only [Task.ensures_bind, Task.ensures_modify, Task.ensures_pure]
      apply build_ensures.imp
      · intro kernel _ _ hpost
        obtain ⟨rfl, rfl, hsource, hworkgroup⟩ := hpost
        have hright : kernel.Right F (F.hardware first).context (f.kernelShape result) := by
          refine ⟨⟨f, result, hsource, rfl⟩, fun others huse d hmem hd => ?_⟩
          rw [hworkgroup]
          exact F.chosen config kernel.source devices others first d hconfig hdevices hfirst huse
            hmem hd
        refine ⟨fun e he => ?_, rfl, hright⟩
        rcases List.mem_append.mp he with he | he
        · exact hc e he
        · obtain rfl := List.mem_singleton.mp he
          exact hright
      · intro _ _ _ hpost
        obtain ⟨rfl, rfl⟩ := hpost
        exact ⟨hc, rfl⟩

/-- Every group gets a right kernel. -/
theorem kernelsForGroups_ensures (hc : c.Sound F) (hconfig : config.validate = .ok config)
    (hdevices : F.inUse devices) {keys : List Key} :
    (kernelsForGroups config F.hardware f result
        (keys.map fun k => (k, devices.filter fun d => (F.hardware d).context = k))).Ensures
      (deviceContract A F.suits)
      (fun kernels c' m' => c'.Sound F ∧ m' = m ∧ ∀ k ∈ keys, ∃ kernel,
        kernels.lookup k = some kernel ∧ kernel.Right F k (f.kernelShape result))
      (fun _ c' m' => c'.Sound F ∧ m' = m) c m := by
  induction keys generalizing c with
  | nil => exact ⟨hc, rfl, nofun⟩
  | cons k rest ih =>
    simp only [List.map_cons, kernelsForGroups, Task.ensures_bind, Task.ensures_pure]
    refine (getOrBuild_ensures hc hconfig hdevices).imp_ok ?_
    intro kernel c' _ hpost
    obtain ⟨hc', rfl, hright⟩ := hpost
    refine (ih hc').imp_ok ?_
    intro kernels c'' _ hpost
    obtain ⟨hc'', rfl, hkernels⟩ := hpost
    refine ⟨hc'', rfl, fun k' hk' => exists_lookup_cons ?_ fun h => ?_⟩
    · rintro rfl
      exact hright
    · exact hkernels k' ((List.mem_cons.mp hk').resolve_left h)

end KernelCache

/-- Every context among devices that are used gets a right kernel. -/
theorem Session.kernelsFor_ensures {V : Type} {A : Arithmetic V} {F : Fleet} {m : Memory}
    {s : Session} {devices : List DeviceId} {f : Formula DataType} {result : Option DataType}
    (hs : s.Sound F) (hdevices : F.inUse devices) :
    (Session.kernelsFor devices f result).Ensures (deviceContract A F.suits)
      (fun kernels s' m' => s'.Sound F ∧ m' = m ∧ ∀ d ∈ devices, ∃ kernel,
        kernels.lookup (F.hardware d).context = some kernel ∧
          kernel.Right F (F.hardware d).context (f.kernelShape result))
      (fun _ s' m' => s'.Sound F ∧ m' = m) s m := by
  obtain ⟨keys, -, hkeys, hgroups⟩ := groupByContext_eq (fun d => (F.hardware d).context) devices
  have hsound : ∀ {c : KernelCache}, c.Sound F →
      { s with hardware := F.hardware, cache := c }.Sound F :=
    fun hc => ⟨rfl, hs.config, hc, hs.alone⟩
  simp only [Session.kernelsFor, Session.onCache, Task.ensures_bind, Task.ensures_get,
    Task.ensures_zoom, KernelCache.kernelsFor, hs.hardware, hgroups]
  apply (KernelCache.kernelsForGroups_ensures hs.cache hs.config hdevices).imp
  · intro kernels c' m' hpost
    obtain ⟨hc', hm', hkernels⟩ := hpost
    exact ⟨hsound hc', hm', fun d hd => hkernels _ ((hkeys _).mpr ⟨d, hd, rfl⟩)⟩
  · intro e c' m' hpost
    obtain ⟨hc', hm'⟩ := hpost
    exact ⟨hsound hc', hm'⟩

end DistributedVector
