import DistributedVector.Proofs.Composition
import DistributedVector.Proofs.Halving
import DistributedVector.Proofs.Keeping
import DistributedVector.Proofs.Store

/-!
# Sessions and stores move on

Sessions go on: kernels are added to their caches, each under its own shape, and none is taken away
or replaced; a strategy in force stays, and so do throughputs that are known. Stores go on likewise,
and the vectors in them change their events only, whatever the devices reply and wherever an
operation fails. So the outline of a store, its vectors without their events, is changed only where
a vector is made, exchanged or replaced.

## Main definitions

* `KernelCache.Shaped`, `Session.Regular` — kernels have the shapes that they are kept under
* `KernelCache.Later`, `Session.Later`, `Store.Later` — what comes later
* `Store.outline`, `Store.Same` — the vectors without their events, and stores that agree in them

## Main results

* `Session.kernelsFor_within`, `Session.partition_within` — sessions
* `Store.onVector_within` — what changes events only in a vector changes events only in the store
* `Store.assign_within`, `Store.write_within`, `Store.copyRange_within` — operations
-/

namespace DistributedVector

/-- A workgroup has threads if the settings are accepted. -/
theorem KernelCache.one_le_workgroupFor {config : SessionConfig} {hardware : Hardware}
    {group : List DeviceId} {source : KernelSource} (hconfig : config.validate = .ok config) :
    1 ≤ workgroupFor config hardware group source :=
  one_le_selectWorkgroup _ (config.one_le_maxWorkgroup hconfig)

/-- Every kernel in a cache has the shape that it is kept under, and threads in its workgroups. -/
def KernelCache.Shaped (c : KernelCache) : Prop :=
  ∀ e ∈ c.entries, e.kernel.source.HasShape e.shape ∧ 1 ≤ e.kernel.workgroup

theorem KernelCache.Shaped.find? {c : KernelCache} (hc : c.Shaped) {context : Key}
    {shape : KernelShape} {kernel : CompiledKernel} (hfind : c.find? context shape = some kernel) :
    kernel.source.HasShape shape ∧ 1 ≤ kernel.workgroup := by
  obtain ⟨e, he, rfl, rfl, rfl⟩ := exists_mem_of_find? hfind
  exact hc e he

/-- Kernels stay where they are, and new ones are right if the settings are accepted. -/
structure KernelCache.Later (config : SessionConfig) (c c' : KernelCache) : Prop where
  entries : c.entries <+: c'.entries
  shaped : config.validate = .ok config → c.Shaped → c'.Shaped

instance (config : SessionConfig) : IsPreorder KernelCache (KernelCache.Later config) where
  refl _ := ⟨List.prefix_rfl, fun _ => id⟩
  trans _ _ _ h h' :=
    ⟨h.entries.trans h'.entries, fun hconfig hc => h'.shaped hconfig (h.shaped hconfig hc)⟩

/-- The devices and the settings stay, and so do the kernels, the strategy in force and the
throughputs that are known. -/
structure Session.Later (s s' : Session) : Prop where
  hardware : s'.hardware = s.hardware
  config : s'.config = s.config
  cache : s.cache.Later s.config s'.cache
  strategy : ∀ strategy, s.strategy = some strategy → s'.strategy = some strategy
  weights : s.weights <+: s'.weights

instance : IsPreorder Session Session.Later where
  refl _ := ⟨rfl, rfl, refl_of (KernelCache.Later _) _, fun _ => id, List.prefix_rfl⟩
  trans _ _ _ h h' := ⟨h'.hardware.trans h.hardware, h'.config.trans h.config,
    trans_of (KernelCache.Later _) h.cache (h.config ▸ h'.cache),
    fun _ hs => h'.strategy _ (h.strategy _ hs), h.weights.trans h'.weights⟩

/-- A session has settings that are accepted, and the kernels in its cache are right. -/
structure Session.Regular (s : Session) : Prop where
  config : s.config.validate = .ok s.config
  cache : s.cache.Shaped

namespace Session.Later

variable {s s' : Session}

theorem with_cache {c : KernelCache} (h : s.cache.Later s.config c) :
    s.Later { s with cache := c } :=
  ⟨rfl, rfl, h, fun _ => id, List.prefix_rfl⟩

theorem with_strategy (h : s.strategy = none) (strategy : Option Strategy) :
    s.Later { s with strategy } :=
  ⟨rfl, rfl, refl_of (KernelCache.Later _) _, fun _ hs => (by cases h.symm.trans hs),
    List.prefix_rfl⟩

theorem with_asked (asked : Nat) : s.Later { s with asked } :=
  ⟨rfl, rfl, refl_of (KernelCache.Later _) _, fun _ => id, List.prefix_rfl⟩

theorem with_weights (h : s.Later s') {weights : Weights} (hweights : s.weights <+: weights) :
    s.Later { s' with weights } :=
  ⟨h.hardware, h.config, h.cache, h.strategy, hweights⟩

theorem regular (h : s.Later s') (hs : s.Regular) : s'.Regular :=
  ⟨h.config ▸ hs.config, h.cache.shaped hs.config hs.cache⟩

end Session.Later

namespace KernelCache

variable {config : SessionConfig} {hardware : Hardware} {f : Formula DataType}
  {result : Option DataType}

theorem later_hit (c : KernelCache) : c.Later config c.hit := ⟨List.prefix_rfl, fun _ => id⟩

theorem later_insert (c : KernelCache) {context : Key} {kernel : CompiledKernel}
    {group : List DeviceId} (h : KernelSource.ofFormula f (result.getD .unnamed) =
      .ok kernel.source)
    (hworkgroup : kernel.workgroup = workgroupFor config hardware group kernel.source) :
    c.Later config (c.insert context (f.kernelShape result) kernel) := by
  refine ⟨List.prefix_append _ _, fun hconfig hc e he => ?_⟩
  rcases List.mem_append.mp he with he | he
  · exact hc e he
  · obtain rfl := List.mem_singleton.mp he
    exact ⟨⟨f, result, h, rfl⟩, hworkgroup ▸ one_le_workgroupFor hconfig⟩

/-- A kernel that has been found stays where it is. -/
theorem Later.find? {c c' : KernelCache} (h : c.Later config c') {context : Key}
    {shape : KernelShape} {kernel : CompiledKernel} (hfind : c.find? context shape = some kernel) :
    c'.find? context shape = some kernel := by
  obtain ⟨e, he, hkernel⟩ := Option.map_eq_some_iff.mp hfind
  exact Option.map_eq_some_iff.mpr ⟨e, h.entries.find?_eq_some he, hkernel⟩

theorem find?_insert_self {c : KernelCache} {context : Key} {shape : KernelShape}
    {kernel : CompiledKernel} (hnone : c.find? context shape = none) :
    (c.insert context shape kernel).find? context shape = some kernel := by
  rw [KernelCache.find?, insert, List.find?_append, Option.map_eq_none_iff.mp hnone]
  simp

/-- A kernel that is returned is kept for the context and the shape. Kernels that are there stay,
and nothing is asked for but what compiles them. -/
theorem getOrBuild_kept (group : List DeviceId) {c : KernelCache} :
    (getOrBuild config hardware group f result).Ensures (.only Call.Compiles)
      (fun kernel c' _ => c.Later config c' ∧ ∀ first ∈ group.head?,
        c'.find? (hardware first).context (f.kernelShape result) = some kernel)
      (fun _ c' _ => c.Later config c') c () := by
  cases group with
  | nil => exact refl_of (Later config) c
  | cons first rest =>
    simp only [getOrBuild, Task.ensures_bind, Task.ensures_get, List.head?_cons,
      Option.mem_some_iff, forall_eq']
    split
    next kernel hfind => exact ⟨later_hit c, hfind⟩
    next hnone =>
      rw [Task.ensures_bind]
      -- the kernel is kept at the end, where no other is found before it
      refine build_generated.imp ?_ ?_
      · rintro kernel _ _ ⟨rfl, hsource, hworkgroup⟩
        exact ⟨later_insert _ hsource hworkgroup, find?_insert_self hnone⟩
      · rintro e _ _ rfl
        exact refl_of (Later config) _

/-- Each group gets the kernel that is kept for its context. -/
theorem kernelsForGroups_kept {groups : List (Key × List DeviceId)}
    (hgroups : Grouped hardware groups) {c : KernelCache} :
    (kernelsForGroups config hardware f result groups).Ensures (.only Call.Compiles)
      (fun kernels c' _ => c.Later config c' ∧ ∀ g ∈ groups, ∃ kernel,
        kernels.lookup g.1 = some kernel ∧ c'.find? g.1 (f.kernelShape result) = some kernel)
      (fun _ c' _ => c.Later config c') c () := by
  induction groups generalizing c with
  | nil => exact ⟨refl_of (Later config) c, nofun⟩
  | cons group rest ih =>
    obtain ⟨first, hfirst, hcontext⟩ := hgroups group List.mem_cons_self
    simp only [kernelsForGroups, Task.ensures_bind, Task.ensures_pure]
    refine (getOrBuild_kept group.2).imp_ok ?_
    rintro kernel c₁ _ ⟨hlater, hfind⟩
    refine (ih fun g hg => hgroups g (List.mem_cons_of_mem _ hg)).imp ?_
      fun _ _ _ h => trans_of (Later config) hlater h
    rintro kernels c₂ _ ⟨hlater', hkernels⟩
    refine ⟨trans_of (Later config) hlater hlater', fun g hg =>
      exists_lookup_cons (fun heq => ?_) fun hne => ?_⟩
    · -- what has been found for the first group is still there behind the others
      rw [heq]
      exact hlater'.find? (hcontext ▸ hfind first hfirst)
    · exact hkernels g ((List.mem_cons.mp hg).resolve_left fun h => hne (congrArg _ h))

end KernelCache

namespace Session

open DistributedVector.Task

variable {perform : Int → List DeviceId → Task Session (List Int)} {f : Formula DataType}
  {result : Option DataType}

/-- Each device gets the kernel that is kept for its context. -/
theorem kernelsFor_kept (devices : List DeviceId) {s : Session} :
    (kernelsFor devices f result).Ensures (.only Call.Compiles)
      (fun kernels s' _ => s.Later s' ∧ ∀ device ∈ devices, ∃ kernel,
        kernels.lookup (s.hardware device).context = some kernel ∧
        s'.cache.find? (s.hardware device).context (f.kernelShape result) = some kernel)
      (fun _ s' _ => s.Later s') s () := by
  have hgrouped := KernelCache.grouped_groupByContext s.hardware devices
  simp only [kernelsFor, onCache, Task.ensures_bind, Task.ensures_get, Task.ensures_zoom,
    KernelCache.kernelsFor]
  refine (KernelCache.kernelsForGroups_kept hgrouped).imp ?_ fun _ _ _ h => .with_cache h
  rintro kernels c' _ ⟨hlater, hkernels⟩
  refine ⟨.with_cache hlater, fun device hdevice => ?_⟩
  obtain ⟨group, hgroup⟩ := mem_groupByContext hdevice
  exact hkernels _ hgroup

theorem kernelsFor_within (devices : List DeviceId) : (kernelsFor devices f result).Within Later :=
  fun _ => (kernelsFor_kept devices).any.imp_ok fun _ _ _ h => h.1

theorem getOrBuild_within (devices : List DeviceId) :
    (getOrBuild devices f result).Within Later := by
  intro s
  simp only [getOrBuild, onCache, Task.ensures_bind, Task.ensures_get, Task.ensures_zoom]
  exact (KernelCache.getOrBuild_kept devices).any.imp (fun _ _ _ h => .with_cache h.1)
    fun _ _ _ h => .with_cache h

theorem kernel_within {ν : Type} (typeOf : ν → DataType) (devices : List DeviceId) (e : Expr ν)
    (result : Option String) : (kernel typeOf devices e result).Within Later :=
  .ite (within_throw _) ((within_orFault _ _).bind fun _ => getOrBuild_within devices)

theorem kernels_within {ν : Type} (typeOf : ν → DataType) (devices : List DeviceId) (e : Expr ν)
    (result : Option String) : (kernels typeOf devices e result).Within Later :=
  .ite (within_pure _) ((within_orFault _ _).bind fun _ => kernelsFor_within devices)

theorem setStrategy_within (strategy : Option Strategy) : (setStrategy strategy).Within Later := by
  intro s
  simp only [setStrategy, Task.ensures_bind, Task.ensures_get]
  split
  next hnone => exact .with_strategy hnone strategy
  · exact within_report _ s

/-- The first use puts partition by throughput in force if nothing else is. -/
theorem currentStrategy_ensures {s : Session} : currentStrategy.Ensures .any
    (fun strategy s' _ => s'.strategy = some strategy ∧ strategy = s.strategy.getD .performance ∧
      s.Later s') (fun _ _ _ => False) s () := by
  simp only [currentStrategy, Task.ensures_bind, Task.ensures_get]
  split
  next strategy hstrategy => exact ⟨hstrategy, by rw [hstrategy]; rfl, refl_of Later s⟩
  next hnone => exact ⟨rfl, by rw [hnone]; rfl, .with_strategy hnone _⟩

/-- A session that has been asked for boundaries has a strategy, whether it has answered or not. -/
theorem partitionWith_kept (hperform : ∀ n devices, (perform n devices).Within Later) {n : Int}
    {devices : List DeviceId} {s : Session} : (partitionWith perform n devices).Ensures .any
      (fun _ s' _ => s.Later s' ∧ s'.strategy = some (s.strategy.getD .performance))
      (fun _ s' _ => s.Later s' ∧ s'.strategy = some (s.strategy.getD .performance)) s () := by
  rw [partitionWith, consult, bind_assoc, Task.ensures_bind]
  refine currentStrategy_ensures.imp ?_ fun _ _ _ h => h.elim
  rintro strategy s₁ _ ⟨hstrategy, hdefault, hlater⟩
  have hchecked : ∀ part : List Int, (do
      orFault .partition (validatePartition part n devices.length)
      report (.partitioned n devices.length part)
      return part : Task Session (List Int)).Within Later := fun part =>
    (within_orFault _ _).bind fun _ => (within_report _).bind fun _ => within_pure _
  have hdone : ∀ {t : Task Session (List Int)}, t.Within Later → t.Ensures .any
      (fun _ s' _ => s.Later s' ∧ s'.strategy = some (s.strategy.getD .performance))
      (fun _ s' _ => s.Later s' ∧ s'.strategy = some (s.strategy.getD .performance)) s₁ () :=
    fun ht => (ht s₁).imp
      (fun _ _ _ h => ⟨trans_of Later hlater h, hdefault ▸ h.strategy _ hstrategy⟩)
      fun _ _ _ h => ⟨trans_of Later hlater h, hdefault ▸ h.strategy _ hstrategy⟩
  cases strategy with
  | equally => exact hdone ((within_pure _).bind hchecked)
  | performance => exact hdone ((hperform n devices).bind hchecked)
  | custom rule =>
    exact hdone <| Within.bind (within_get.bind fun _ => Within.bind
      (within_modify fun _ => .with_asked _) fun _ => within_orFault _ _) hchecked

theorem partitionWith_within (hperform : ∀ n devices, (perform n devices).Within Later) (n : Int)
    (devices : List DeviceId) : (partitionWith perform n devices).Within Later := fun _ =>
  (partitionWith_kept hperform).imp (fun _ _ _ h => h.1) fun _ _ _ h => h.1

/-- Making a vector leaves the session with its kernels. -/
theorem create_within (hperform : ∀ n devices, (perform n devices).Within Later)
    (r : VectorRequest) : (Vector.create (partitionWith perform) r).Within Later := by
  have hboundaries : (Vector.boundariesFor (partitionWith perform) r).Within Later := by
    unfold Vector.boundariesFor
    split
    · exact (within_orFault _ _).bind fun _ => within_pure _
    · exact .ite (within_pure _) (partitionWith_within hperform _ _)
  refine (within_orFault _ _).bind fun _ => (within_orFault _ _).bind fun type => hboundaries.bind
    fun part => (Vector.allocate_within _ _ _).bind fun shards => ?_
  dsimp only
  split
  · exact within_pure _
  · exact (within_runOn _ _).bind fun _ => within_pure _

theorem addOnce_within (device : DeviceId) (a b c : Descriptor) :
    (addOnce device a b c).Within Later :=
  (kernelsFor_within _).bind fun _ => within_get.bind fun _ => (within_runOn _ _).bind fun _ =>
    within_issue _

theorem profile_within {τ : Type} {R : τ → τ → Prop} [IsPreorder τ R] {run : Task τ Unit}
    (hrun : run.Within R) (warmup iterations : Int) : (profile run warmup iterations).Within R := by
  have hrepeated : ∀ n, (repeated run n).Within R := by
    intro n
    induction n with
    | zero => exact within_pure _
    | succ n ih => exact hrun.bind fun _ => ih
  exact (hrepeated _).bind fun _ => (within_perform _).bind fun _ => (hrepeated _).bind fun _ =>
    (within_perform _).bind fun _ => within_ofExcept _

theorem measure_within (owner : SessionId) (device : DeviceId) :
    (measure owner device).Within Later := by
  have hcreate : ∀ r, (Vector.create (partitionWith fun n _ => return [0, n]) r).Within Later :=
    create_within fun _ _ => within_pure _
  exact (hcreate _).bind fun a => (hcreate _).bind fun b => (hcreate _).bind fun c =>
    (profile_within (addOnce_within device a b c) 1 1).bind fun _ => within_get.bind fun _ =>
      (within_report _).bind fun _ => within_pure _

/-- Throughputs beside a session are those that count. -/
def LaterBeside (p q : Weights × Session) : Prop := p.1 <+: q.1 ∧ p.2.Later q.2

instance : IsPreorder (Weights × Session) LaterBeside where
  refl p := ⟨List.prefix_rfl, refl_of Later p.2⟩
  trans _ _ _ h h' := ⟨h.1.trans h'.1, trans_of Later h.2 h'.2⟩

section Measuring

variable {measure : DeviceId → Task Session Scalar} (hmeasure : ∀ d, (measure d).Within Later)
include hmeasure

theorem weigh_within (device : DeviceId) : (weigh measure device).Within LaterBeside := by
  have hbeside : (besideWeights (measure device)).Within LaterBeside :=
    (hmeasure device).zoom fun _ _ h => ⟨List.prefix_rfl, h⟩
  refine within_get.bind fun p => ?_
  split
  · exact within_pure _
  · exact hbeside.bind fun _ => Within.bind
      (within_modify fun q => ⟨List.prefix_append _ _, refl_of Later q.2⟩) fun _ => within_pure _

theorem partitionByPerformance_within (n : Int) (devices : List DeviceId) :
    (partitionByPerformance measure n devices).Within LaterBeside := by
  have hall : ∀ devices, (weighAll measure devices).Within LaterBeside := by
    intro devices
    induction devices with
    | nil => exact within_pure _
    | cons d rest ih => exact (weigh_within hmeasure d).bind fun _ => ih.bind fun _ => within_pure _
  unfold partitionByPerformance
  split
  · exact within_pure _
  · exact (hall _).bind fun _ => within_orFault _ _

end Measuring

theorem onWeights_within {α : Type} {t : Task (Weights × Session) α} (ht : t.Within LaterBeside) :
    (onWeights t).Within Later :=
  ht.zoom fun _ _ h => h.2.with_weights h.1

theorem performance_within (owner : SessionId) (n : Int) (devices : List DeviceId) :
    (performance owner n devices).Within Later :=
  onWeights_within (partitionByPerformance_within (measure_within owner) n devices)

theorem partition_within (owner : SessionId) (n : Int) (devices : List DeviceId) :
    (partition owner n devices).Within Later :=
  partitionWith_within (performance_within owner) n devices

theorem weight_within (owner : SessionId) (device : DeviceId) :
    (weight owner device).Within Later :=
  onWeights_within (weigh_within (measure_within owner) device)

end Session

namespace Store

open DistributedVector.Task

variable {α : Type} {R : Store → Store → Prop} [IsPreorder Store R] {S S' : Store}
  {v : VectorId} {d d' : Descriptor}

/-- The vectors of a store without their events. -/
def outline (S : Store) : Array Descriptor := S.vectors.map Descriptor.forget

theorem outline_put (hv : S.vectors[v]? = some d) (hsame : d.Alike d') :
    outline { S with vectors := S.vectors.setIfInBounds v d' } = S.outline := by
  refine Array.ext_getElem? fun w => ?_
  simp only [outline, Array.getElem?_map]
  by_cases hw : v = w
  · subst hw
    rw [getElem?_put hv, hv, Option.map_some, Option.map_some, hsame]
  · rw [Array.getElem?_setIfInBounds_ne hw]

/-- Nothing changes in the vectors but events, and nothing in the sessions. -/
def Same (S S' : Store) : Prop := S'.outline = S.outline ∧ S'.sessions = S.sessions

instance : IsPreorder Store Same where
  refl _ := ⟨rfl, rfl⟩
  trans _ _ _ h h' := ⟨h'.1.trans h.1, h'.2.trans h.2⟩

/-- Nothing changes in the vectors but events, and sessions become later ones. -/
structure Later (S S' : Store) : Prop where
  outline : S'.outline = S.outline
  count : S'.sessions.size = S.sessions.size
  sessions : ∀ (k : SessionId) s', S'.sessions[k]? = some s' →
    ∃ s, S.sessions[k]? = some s ∧ s.Later s'

instance : IsPreorder Store Later where
  refl _ := ⟨rfl, rfl, fun _ s hs => ⟨s, hs, refl_of Session.Later s⟩⟩
  trans _ _ _ h h' := by
    refine ⟨h'.outline.trans h.outline, h'.count.trans h.count, fun k s'' hs'' => ?_⟩
    obtain ⟨s', hs', hlater'⟩ := h'.sessions k s'' hs''
    obtain ⟨s, hs, hlater⟩ := h.sessions k s' hs'
    exact ⟨s, hs, trans_of Session.Later hlater hlater'⟩

theorem Same.later (h : Same S S') : Later S S' :=
  ⟨h.1, congrArg Array.size h.2, fun _ s hs => ⟨s, h.2 ▸ hs, refl_of Session.Later s⟩⟩

/-- A relation that allows events to be noted. -/
class Eventless (R : Store → Store → Prop) : Prop where
  put : ∀ (S : Store) (v : VectorId) d d', S.vectors[v]? = some d → d.Alike d' →
    R S { S with vectors := S.vectors.setIfInBounds v d' }

instance : Eventless Same := ⟨fun _ _ _ _ hv hsame => ⟨outline_put hv hsame, rfl⟩⟩

instance : Eventless Later := ⟨fun _ _ _ _ hv hsame => Same.later ⟨outline_put hv hsame, rfl⟩⟩

theorem vector_within (v : VectorId) : (vector v).Within R := fun S => by simp [refl_of R S]

/-- What changes events only in a vector changes events only in the store. -/
theorem onVector_within [Eventless R] {t : Task Descriptor α} (ht : t.Within Descriptor.Alike)
    (v : VectorId) : (onVector v t).Within R := by
  intro S
  rw [onVector_ensures]
  refine ⟨fun d hv => ?_, fun _ => refl_of R S⟩
  exact (ht d).imp (fun _ d' _ h => Eventless.put S v d d' hv h)
    fun _ d' _ h => Eventless.put S v d d' hv h

/-- A later session takes the place of a session. -/
theorem later_putSession {k : SessionId} {s s' : Session} (hs : S.sessions[k]? = some s)
    (h : s.Later s') : Later S { S with sessions := S.sessions.setIfInBounds k s' } := by
  refine ⟨rfl, Array.size_setIfInBounds, fun k' s'' hs'' => ?_⟩
  simp only [Array.getElem?_setIfInBounds] at hs''
  split at hs''
  next heq =>
    split at hs''
    · cases hs''
      exact ⟨s, heq ▸ hs, h⟩
    · cases hs''
  · exact ⟨s'', hs'', refl_of Session.Later s''⟩

theorem onSession_within (k : SessionId) {t : Task Session α} (ht : t.Within Session.Later) :
    (onSession k t).Within Later := by
  intro S
  rw [onSession_ensures]
  refine ⟨fun s hs => ?_, fun _ => refl_of Later S⟩
  exact (ht s).imp (fun _ _ _ h => later_putSession hs h) fun _ _ _ h => later_putSession hs h

/-! ## Operations -/

theorem readEach_within (d : Descriptor) (positions : List Nat) :
    (readEach d positions).Within Descriptor.Alike := by
  induction positions with
  | nil => exact within_pure _
  | cons i rest ih =>
    exact (Vector.readElement_within _ _).bind fun _ => ih.bind fun _ => within_pure _

theorem inner_within {t : Task Descriptor α} (h : Vector.Inner t) : t.Within Descriptor.Alike := by
  cases h with
  | checkRange => exact Vector.checkRange_within _ _
  | write => exact Vector.write_within _ _ _ _
  | readRange => exact Vector.readRange_within _ _
  | readAll => exact Vector.readAll_within
  | readEach => exact readEach_within _ _
  | readElement => exact Vector.readElement_within _ _
  | writeElements => exact Vector.writeElements_within _ _ _
  | dispatch => exact Vector.dispatch_within _ _ _

/-- Whatever operations look at, they move a store along a relation that allows events to be
noted. -/
def Logic.within (R : Store → Store → Prop) [IsPreorder Store R] [Eventless R] : Logic where
  holds _ _ t := t.Within R
  ends _ _ t := t.Within R
  done := within_pure
  fail := within_throw
  state := within_get
  check := within_orFault
  seq ht hg := ht.bind hg
  contents _ := Vector.contents_within _
  multiply _ _ _ := within_perform _
  onVector v h := onVector_within (inner_within h) v
  copyFrom v w hevaluate := .ite (within_pure _) <| (vector_within v).bind fun _ =>
    (vector_within w).bind fun _ => (within_orFault _ _).bind fun _ => .ite (hevaluate _)
      (onVector_within (Vector.copyShards_within _ _) v)
  last := id
  seqEnds ht hg := ht.bind hg
  endsSeq ht hg := ht.bind hg
  read v _ _ _ _ _ := onVector_within (Vector.read_within _ _ _ _) v
  slice v _ _ _ hg := (onVector_within (Vector.read_within _ _ _ _) v).bind hg

section Operations

variable (v : VectorId)

theorem elements_within [Eventless R] : (elements v).Within R :=
  @Logic.elements (.within R) (fun _ => True) v

theorem resolveExtent_within [Eventless R] (b : Blueprint) : (resolveExtent b).Within R :=
  @Logic.resolveExtent (.within R) (fun _ => True) b (fun _ _ => Collection.known_true _)
    fun _ _ => Collection.known_true _

theorem write_within (offset count : Int) (source : Collection) (blocking : Bool) :
    (write v offset count source blocking).Within Later :=
  Logic.write (L := .within Later) v offset count blocking (Collection.known_true source)

theorem get_within (index : Index) : (get v index).Within Later :=
  @Logic.readAt (.within Later) (fun _ => True) v index

theorem set_within (index : Index) (x : Content) : (set v index x).Within Later :=
  Logic.set (L := .within Later) v index (Content.known_true x)

theorem getSlice_within (s : Slice) : (getSlice v s).Within Later :=
  @Logic.getSlice (.within Later) (fun _ => True) v s

/-- Sessions compile kernels and keep them. -/
theorem compile_within (k : SessionId) (devices : List DeviceId) (f : Formula DataType)
    (result : Option DataType) : (onSession k (Session.kernelsFor devices f result)).Within Later :=
  onSession_within k (Session.kernelsFor_within devices)

theorem assign_within (source : Operand VectorId) : (assign v source).Within Later :=
  @Logic.assign (.within Later) (fun _ => True) compile_within v source

theorem update_within (op : BinaryOp) (source : Operand VectorId) :
    (update v op source).Within Later :=
  @Logic.update (.within Later) (fun _ => True) compile_within v op source

theorem setSlice_within (s : Slice) (x : Content) : (setSlice v s x).Within Later :=
  Logic.setSlice (L := .within Later) compile_within v s (Content.known_true x)

theorem copy_within (source target : Collection) (blocking : Bool) :
    (copy source target blocking).Within Later :=
  Logic.copy (L := .within Later) compile_within blocking (Collection.known_true source)
    (Collection.known_true target)

theorem copyRange_within (first last result : Cursor) (blocking : Bool) :
    (copyRange first last result blocking).Within Later :=
  Logic.copyRange (L := .within Later) blocking (fun _ _ => first.known_true _)
    fun _ _ => result.known_true _

end Operations

end Store

end DistributedVector
