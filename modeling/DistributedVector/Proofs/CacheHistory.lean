import DistributedVector.Machine.Basic
import DistributedVector.Proofs.KernelCache
import DistributedVector.Proofs.ShapeSource
import Mathlib.Data.List.Nodup

/-!
# What a kernel cache goes through

A cache is asked for kernels one at a time, or for the kernels of all contexts among devices, which
is one request after the other up to the first that fails. Nothing is assumed of the devices: builds
may fail, and anything may happen to the devices between requests.

A request ends in one of four ways: the group is empty, the kernel is found, it cannot be built, or
it is built and kept. From these the account of a whole history follows. What is found is right
because a shape determines the kernel of the formulas that have it.

## Main definitions

* `KernelCache.Visit`, `KernelCache.visit` — one request and what it does
* `KernelCache.History` — the requests that a cache has met since it was empty
* `KernelCache.Ledger` — the account of a history

## Main results

* `KernelCache.visit_ends` — the four ways in which a request ends
* `KernelCache.History.ledger` — every history has its account, and so has the next request for all
  contexts
-/

namespace DistributedVector

namespace KernelCache

/-- A request for one kernel: what is asked for, the cache before and after, how it ends, and the
calls that it makes. -/
structure Visit where
  group : List DeviceId
  formula : Formula DataType
  result : Option DataType
  before : KernelCache
  outcome : Except Fault CompiledKernel
  after : KernelCache
  calls : List Call

/-- The shape that is asked for. -/
def Visit.shape (v : Visit) : KernelShape := v.formula.kernelShape v.result

/-- Formulas that are well formed, and result types that devices support. -/
structure Proper (f : Formula DataType) (result : Option DataType) : Prop where
  formula : f.isWellFormed
  result : ∀ t ∈ result, t.isSupported

section

variable {σ : Type} (h : Handler σ) (config : SessionConfig) (hardware : Hardware)

/-- Runs one request. -/
def visit (group : List DeviceId) (f : Formula DataType) (result : Option DataType)
    (c : KernelCache) (x : σ) : Visit × σ :=
  let task := (getOrBuild config hardware group f result).runFrom c
  (⟨group, f, result, c, (task.run h x).1.1, (task.run h x).1.2, task.calls h x⟩, (task.run h x).2)

/-- Runs one request for each group, up to the first that fails. -/
def visitAll (f : Formula DataType) (result : Option DataType) :
    List (List DeviceId) → KernelCache → σ → List Visit × KernelCache × σ
  | [], c, x => ([], c, x)
  | group :: rest, c, x =>
    let v := visit h config hardware group f result c x
    match v.1.outcome with
    | .error _ => ([v.1], v.1.after, v.2)
    | .ok _ =>
      let others := visitAll f result rest v.1.after v.2
      (v.1 :: others.1, others.2)

/-- What a cache has gone through since it was empty. Between two requests anything may happen to
the devices. -/
inductive History : KernelCache → σ → List Visit → Prop
  | start (x : σ) : History {} x []
  | elsewhere {c : KernelCache} {x : σ} {vs : List Visit} (y : σ) (hist : History c x vs) :
    History c y vs
  | single {c : KernelCache} {x : σ} {vs : List Visit} {group : List DeviceId}
    {f : Formula DataType} {result : Option DataType} (hist : History c x vs)
    (proper : Proper f result) :
    History (((getOrBuild config hardware group f result).runFrom c).run h x).1.2
      (((getOrBuild config hardware group f result).runFrom c).run h x).2
      (vs ++ [(visit h config hardware group f result c x).1])
  | all {c : KernelCache} {x : σ} {vs : List Visit} {devices : List DeviceId}
    {f : Formula DataType} {result : Option DataType} (hist : History c x vs)
    (proper : Proper f result) :
    History (((kernelsFor config hardware devices f result).runFrom c).run h x).1.2
      (((kernelsFor config hardware devices f result).runFrom c).run h x).2
      (vs ++ (visitAll h config hardware f result
        ((groupByContext (fun d => (hardware d).context) devices).map (·.2)) c x).1)

end

/-! ## The ways in which a request ends -/

/-- How a request can end. -/
inductive Visit.Ends (hardware : Hardware) : Visit → Prop
  | empty {f : Formula DataType} {result : Option DataType} {c : KernelCache} :
    Ends hardware ⟨[], f, result, c, .error (.vector .noContext), c, []⟩
  | found {first : DeviceId} {rest : List DeviceId} {f : Formula DataType}
    {result : Option DataType} {c : KernelCache} {kernel : CompiledKernel}
    (found : c.find? (hardware first).context (f.kernelShape result) = some kernel) :
    Ends hardware ⟨first :: rest, f, result, c, .ok kernel, c.hit, []⟩
  | failed {first : DeviceId} {rest : List DeviceId} {f : Formula DataType}
    {result : Option DataType} {c : KernelCache} {e : Fault} {calls : List Call}
    (missing : c.find? (hardware first).context (f.kernelShape result) = none) :
    Ends hardware ⟨first :: rest, f, result, c, .error e, c, calls⟩
  | built {first : DeviceId} {rest : List DeviceId} {f : Formula DataType}
    {result : Option DataType} {c : KernelCache} {kernel : CompiledKernel} {calls : List Call}
    (missing : c.find? (hardware first).context (f.kernelShape result) = none)
    (source : KernelSource.ofFormula f (result.getD .unnamed) = .ok kernel.source) :
    Ends hardware ⟨first :: rest, f, result, c, .ok kernel,
      c.insert (hardware first).context (f.kernelShape result) kernel, calls⟩

section

variable {σ : Type} {h : Handler σ} {config : SessionConfig} {hardware : Hardware}
  {group : List DeviceId} {f : Formula DataType} {result : Option DataType}
  {c : KernelCache} {x : σ}

/-- A build leaves the cache alone, and a kernel that it returns is the one of the formula. -/
theorem build_run {τ : Type} {first : DeviceId} {type : DataType} {s : τ}
    {r : Except Fault CompiledKernel × τ} {y : σ}
    (hrun : ((build config hardware first group f type : Task τ CompiledKernel).runFrom s).run h x =
      (r, y)) :
    r.2 = s ∧ ∀ kernel, r.1 = .ok kernel → KernelSource.ofFormula f type = .ok kernel.source := by
  obtain ⟨_ | kernel, s'⟩ := r
  · exact ⟨build_generated.any.of_run_error h.meets_any hrun, nofun⟩
  · obtain ⟨hs, hsource, -⟩ := build_generated.any.of_run_ok h.meets_any hrun
    refine ⟨hs, fun _ hkernel => ?_⟩
    cases hkernel
    exact hsource

/-- A request ends in one of four ways. -/
theorem visit_ends : (visit h config hardware group f result c x).1.Ends hardware := by
  cases group with
  | nil => exact .empty
  | cons first rest =>
    cases hfind : c.find? (hardware first).context (f.kernelShape result) with
    | some kernel =>
      -- a hit asks the devices for nothing
      have htask : (getOrBuild config hardware (first :: rest) f result).runFrom c =
          pure (.ok kernel, c.hit) := by
        simp only [getOrBuild, Task.runFrom_bind, Task.runFrom_get, Program.pure_bind, hfind,
          Task.runFrom_modify, Task.runFrom_pure]
      simp only [visit, htask, Program.run_pure, Program.calls_pure]
      exact .found hfind
    | none =>
      -- a miss is a build, and the kernel is kept if there is one
      have htask : (getOrBuild config hardware (first :: rest) f result).runFrom c =
          (build config hardware first (first :: rest) f (result.getD .unnamed)).runFrom c >>=
            fun r => match r.1 with
              | .ok kernel => pure (.ok kernel,
                  r.2.insert (hardware first).context (f.kernelShape result) kernel)
              | .error e => pure (.error e, r.2) := by
        simp only [getOrBuild, Task.runFrom_bind, Task.runFrom_get, Program.pure_bind, hfind,
          Task.runFrom_modify, Task.runFrom_pure]
        refine congrArg _ (funext fun r => ?_)
        obtain ⟨_ | _, _⟩ := r <;> rfl
      simp only [visit, htask, Program.run_bind]
      generalize hrun : ((build config hardware first (first :: rest) f
        (result.getD .unnamed)).runFrom c).run h x = r
      obtain ⟨⟨_ | kernel, c'⟩, y⟩ := r
      · obtain ⟨rfl, -⟩ := build_run hrun
        exact .failed hfind
      · obtain ⟨rfl, hsource⟩ := build_run hrun
        exact .built hfind (hsource kernel rfl)

end

/-! ## Consistent caches -/

/-- The entries of a cache have distinct keys, and each has the kernel of a proper formula of its
shape; as many have been built as are there. -/
structure Consistent (c : KernelCache) : Prop where
  distinct : (c.entries.map fun e => (e.context, e.shape.key)).Nodup
  generated : ∀ e ∈ c.entries, ∃ f result, Proper f result ∧ f.kernelShape result = e.shape ∧
    KernelSource.ofFormula f (result.getD .unnamed) = .ok e.kernel.source
  builds : c.builds = c.entries.length

theorem consistent_empty : Consistent {} := ⟨List.nodup_nil, nofun, rfl⟩

section

variable {c c' : KernelCache} {context : Key} {shape : KernelShape} {kernel : CompiledKernel}
  {f : Formula DataType} {result : Option DataType}

/-- An entry is found by its own key. -/
theorem Consistent.find?_of_mem (hc : c.Consistent) {e : CacheEntry} (he : e ∈ c.entries) :
    c.find? e.context e.shape = some e.kernel := by
  rw [find?]
  -- something is found, since the entry itself would be, and keys are distinct
  cases hfind : c.entries.find? fun e' => e'.context = e.context ∧ e'.shape.key = e.shape.key with
  | none =>
    have hnone := List.find?_eq_none.mp hfind e he
    simp at hnone
  | some e' =>
    have hkey : e'.context = e.context ∧ e'.shape.key = e.shape.key := by
      simpa using List.find?_some hfind
    have heq : e' = e := List.inj_on_of_nodup_map hc.distinct (List.mem_of_find?_eq_some hfind) he
      (Prod.ext hkey.1 hkey.2)
    rw [heq]
    rfl

/-- What has been found stays where it is while the cache grows. -/
theorem Consistent.find?_of_grown (hc' : c'.Consistent) (hgrown : c.entries <+: c'.entries)
    (hfind : c.find? context shape = some kernel) : c'.find? context shape = some kernel := by
  obtain ⟨e, he, rfl, rfl, rfl⟩ := exists_mem_of_find? hfind
  exact hc'.find?_of_mem (hgrown.subset he)

/-- A kernel that is found is the kernel of the formula that asks for it, whichever formula it was
built for. -/
theorem Consistent.ofFormula_of_find? (hc : c.Consistent) (hproper : Proper f result)
    (hfind : c.find? context (f.kernelShape result) = some kernel) :
    KernelSource.ofFormula f (result.getD .unnamed) = .ok kernel.source := by
  obtain ⟨e, he, -, hshape, rfl⟩ := exists_mem_of_find? hfind
  obtain ⟨g, type, hg, hgshape, hsource⟩ := hc.generated e he
  -- the kernel was built for `g`, which has the shape of `f`
  obtain ⟨rfl, hbody⟩ := Formula.kernelShape_inj hg.result hproper.result (hgshape.trans hshape)
  rw [← KernelSource.ofFormula_congr (Formula.supported_of_mem_terminals _ hg.formula)
    (Formula.supported_of_mem_terminals _ hproper.formula) hbody, hsource]

theorem Consistent.hit (hc : c.Consistent) : c.hit.Consistent :=
  ⟨hc.distinct, hc.generated, hc.builds⟩

/-- A kernel that has been missing and is built for a proper formula may be kept. -/
theorem Consistent.insert (hc : c.Consistent) (hproper : Proper f result)
    (hmissing : c.find? context (f.kernelShape result) = none)
    (hsource : KernelSource.ofFormula f (result.getD .unnamed) = .ok kernel.source) :
    (c.insert context (f.kernelShape result) kernel).Consistent := by
  have hnone := List.find?_eq_none.mp (Option.map_eq_none_iff.mp hmissing)
  constructor
  · rw [KernelCache.insert, List.map_append]
    apply List.nodup_append.mpr
    refine ⟨hc.distinct, List.nodup_singleton _, ?_⟩
    rintro k hk k' hk' rfl
    obtain ⟨e, he, rfl⟩ := List.mem_map.mp hk
    obtain ⟨hcontext, hkey⟩ := Prod.mk.inj (List.mem_singleton.mp hk')
    exact hnone e he (by simp [hcontext, hkey])
  · intro e he
    rcases List.mem_append.mp he with he | he
    · exact hc.generated e he
    · obtain rfl := List.mem_singleton.mp he
      exact ⟨f, result, hproper, rfl, hsource⟩
  · simp [KernelCache.insert, hc.builds]

end

namespace Visit.Ends

variable {hardware : Hardware} {v : Visit}

theorem consistent (hv : v.Ends hardware) (hproper : Proper v.formula v.result)
    (hc : v.before.Consistent) : v.after.Consistent := by
  cases hv with
  | empty => exact hc
  | found hfind => exact hc.hit
  | failed hmissing => exact hc
  | built hmissing hsource => exact hc.insert hproper hmissing hsource

theorem grown (hv : v.Ends hardware) : v.before.entries <+: v.after.entries := by
  cases hv with
  | empty => exact List.prefix_rfl
  | found hfind => exact List.prefix_rfl
  | failed hmissing => exact List.prefix_rfl
  | built hmissing hsource => exact List.prefix_append _ _

/-- Each request that returns is counted, as a build or as a hit. -/
theorem counted (hv : v.Ends hardware) : v.after.builds + v.after.hits =
    v.before.builds + v.before.hits + [v].countP (·.outcome.isOk) := by
  cases hv with
  | empty => rfl
  | found hfind => rfl
  | failed hmissing => rfl
  | @built _ _ _ _ c _ _ hmissing hsource =>
    show c.builds + 1 + c.hits = c.builds + c.hits + 1
    omega

/-- A kernel that is returned is kept for the context of the group. -/
theorem served (hv : v.Ends hardware) (hproper : Proper v.formula v.result)
    (hc : v.before.Consistent) {kernel : CompiledKernel} (hok : v.outcome = .ok kernel) :
    ∃ first ∈ v.group.head?, v.after.find? (hardware first).context v.shape = some kernel ∧
      KernelSource.ofFormula v.formula (v.result.getD .unnamed) = .ok kernel.source := by
  have hc' := hv.consistent hproper hc
  cases hv with
  | empty => cases hok
  | found hfind =>
    cases hok
    exact ⟨_, rfl, hfind, hc.ofFormula_of_find? hproper hfind⟩
  | failed hmissing => cases hok
  | built hmissing hsource =>
    cases hok
    exact ⟨_, rfl, hc'.find?_of_mem (List.mem_append_right _ List.mem_cons_self), hsource⟩

/-- Nothing is asked of the devices for a kernel that is kept. -/
theorem calls_eq_nil (hv : v.Ends hardware) {first : DeviceId} (hfirst : first ∈ v.group.head?)
    (hkept : (v.before.find? (hardware first).context v.shape).isSome) : v.calls = [] := by
  cases hv with
  | empty => rfl
  | found hfind => rfl
  | failed hmissing | built hmissing _ =>
    cases hfirst
    rw [Visit.shape, hmissing] at hkept
    cases hkept

/-- A request fails only for a kernel that is not there. -/
theorem missing (hv : v.Ends hardware) {e : Fault} (herror : v.outcome = .error e)
    {first : DeviceId} (hfirst : first ∈ v.group.head?) :
    v.before.find? (hardware first).context v.shape = none := by
  cases hv with
  | empty => cases hfirst
  | found hfind => cases herror
  | failed hmissing =>
    cases hfirst
    exact hmissing
  | built hmissing hsource => cases herror

theorem unchanged (hv : v.Ends hardware) {e : Fault} (herror : v.outcome = .error e) :
    v.after = v.before := by
  cases hv with
  | empty => rfl
  | found hfind => cases herror
  | failed hmissing => rfl
  | built hmissing hsource => cases herror

end Visit.Ends

/-! ## The account of a history -/

/-- The account of a cache that has met some requests, one after the other. -/
structure Ledger (hardware : Hardware) (c : KernelCache) (vs : List Visit) : Prop where
  /-- entries are only ever added at the end, and each is found as it was stored -/
  kept : ∀ v ∈ vs, v.before.entries <+: v.after.entries ∧ v.after.entries <+: c.entries ∧
    ∀ e ∈ v.after.entries, c.find? e.context e.shape = some e.kernel
  /-- a kernel that was returned is the one generated for the formula and the result type of the
  request, and is kept for the context of the group -/
  served : ∀ v ∈ vs, ∀ kernel, v.outcome = .ok kernel → ∃ first ∈ v.group.head?,
    c.find? (hardware first).context v.shape = some kernel ∧
      KernelSource.ofFormula v.formula (v.result.getD .unnamed) = .ok kernel.source
  /-- nothing was asked of the devices for a kernel that was there, so it was not built again -/
  once : ∀ v ∈ vs, ∀ first ∈ v.group.head?,
    (v.before.find? (hardware first).context v.shape).isSome → v.calls = []
  builds : c.builds = c.entries.length
  returned : c.builds + c.hits = vs.countP (·.outcome.isOk)
  /-- a request that failed left entries and counters as they were -/
  unchanged : ∀ v ∈ vs, ∀ e, v.outcome = .error e → v.after = v.before

section

variable {σ : Type} {h : Handler σ} {config : SessionConfig} {hardware : Hardware}
  {f : Formula DataType} {result : Option DataType} {c : KernelCache} {x : σ} {vs : List Visit}

theorem ledger_empty (hardware : Hardware) : Ledger hardware {} [] := by
  constructor <;> simp

/-- One more request is entered in the account. -/
theorem Ledger.snoc {v : Visit} (hledger : Ledger hardware c vs) (hc : c.Consistent)
    (hv : v.Ends hardware) (hproper : Proper v.formula v.result) (hbefore : v.before = c) :
    Ledger hardware v.after (vs ++ [v]) := by
  subst hbefore
  have hafter := hv.consistent hproper hc
  constructor
  case builds => exact hafter.builds
  case returned => rw [hv.counted, hledger.returned, List.countP_append]
  -- what holds of the requests before and of the new one
  all_goals
    intro w hw
    rcases List.mem_append.mp hw with hw | hw
  · obtain ⟨hgrown, hlater, -⟩ := hledger.kept w hw
    exact ⟨hgrown, hlater.trans hv.grown,
      fun e he => hafter.find?_of_mem ((hlater.trans hv.grown).subset he)⟩
  · obtain rfl := List.mem_singleton.mp hw
    exact ⟨hv.grown, List.prefix_rfl, fun e he => hafter.find?_of_mem he⟩
  · intro kernel hok
    obtain ⟨first, hfirst, hfind, hsource⟩ := hledger.served w hw kernel hok
    exact ⟨first, hfirst, hafter.find?_of_grown hv.grown hfind, hsource⟩
  · obtain rfl := List.mem_singleton.mp hw
    exact fun kernel hok => hv.served hproper hc hok
  · exact hledger.once w hw
  · obtain rfl := List.mem_singleton.mp hw
    exact fun first hfirst => hv.calls_eq_nil hfirst
  · exact hledger.unchanged w hw
  · obtain rfl := List.mem_singleton.mp hw
    exact fun e herror => hv.unchanged herror

theorem visitAll_cons_error {group : List DeviceId} {rest : List (List DeviceId)} {e : Fault}
    (herror : (visit h config hardware group f result c x).1.outcome = .error e) :
    visitAll h config hardware f result (group :: rest) c x =
      ([(visit h config hardware group f result c x).1],
        (visit h config hardware group f result c x).1.after,
        (visit h config hardware group f result c x).2) := by
  simp only [visitAll, herror]

theorem visitAll_cons_ok {group : List DeviceId} {rest : List (List DeviceId)}
    {kernel : CompiledKernel}
    (hok : (visit h config hardware group f result c x).1.outcome = .ok kernel) :
    visitAll h config hardware f result (group :: rest) c x =
      ((visit h config hardware group f result c x).1 ::
          (visitAll h config hardware f result rest
            (visit h config hardware group f result c x).1.after
            (visit h config hardware group f result c x).2).1,
        (visitAll h config hardware f result rest
          (visit h config hardware group f result c x).1.after
          (visit h config hardware group f result c x).2).2) := by
  simp only [visitAll, hok]

/-- The requests for several groups are entered one after the other. -/
theorem Ledger.visitAll {groups : List (List DeviceId)} (hledger : Ledger hardware c vs)
    (hc : c.Consistent) (hproper : Proper f result) :
    Ledger hardware (visitAll h config hardware f result groups c x).2.1
      (vs ++ (visitAll h config hardware f result groups c x).1) := by
  induction groups generalizing c x vs with
  | nil => simpa [KernelCache.visitAll] using hledger
  | cons group rest ih =>
    have hends : (visit h config hardware group f result c x).1.Ends hardware := visit_ends
    have hnext := hledger.snoc hc hends hproper rfl
    cases hoc : (visit h config hardware group f result c x).1.outcome with
    | error e =>
      rw [visitAll_cons_error hoc]
      exact hnext
    | ok kernel =>
      rw [visitAll_cons_ok hoc, List.append_cons]
      exact ih hnext (hends.consistent hproper hc)

/-- The requests for several groups leave a consistent cache, with everything that was there. -/
theorem visitAll_grown {groups : List (List DeviceId)} (hc : c.Consistent)
    (hproper : Proper f result) :
    (visitAll h config hardware f result groups c x).2.1.Consistent ∧
      c.entries <+: (visitAll h config hardware f result groups c x).2.1.entries := by
  induction groups generalizing c x with
  | nil => exact ⟨hc, List.prefix_rfl⟩
  | cons group rest ih =>
    have hends : (visit h config hardware group f result c x).1.Ends hardware := visit_ends
    have hc' := hends.consistent hproper hc
    cases hoc : (visit h config hardware group f result c x).1.outcome with
    | error e =>
      rw [visitAll_cons_error hoc]
      exact ⟨hc', hends.grown⟩
    | ok kernel =>
      rw [visitAll_cons_ok hoc]
      exact (ih hc').imp_right hends.grown.trans

/-! ## Requests for the kernels of several groups -/

/-- A failure for the first group ends the request. -/
theorem kernelsForGroups_cons_error {context : Key} {group : List DeviceId}
    {rest : List (Key × List DeviceId)} {e : Fault}
    (herror : (visit h config hardware group f result c x).1.outcome = .error e) :
    ((kernelsForGroups config hardware f result ((context, group) :: rest)).runFrom c).run h x =
        ((.error e, (visit h config hardware group f result c x).1.after),
          (visit h config hardware group f result c x).2) ∧
      ((kernelsForGroups config hardware f result ((context, group) :: rest)).runFrom c).calls h x =
        (visit h config hardware group f result c x).1.calls := by
  simp only [visit] at herror
  simp only [kernelsForGroups, Task.runFrom_bind, Program.run_bind, Program.calls_bind, visit,
    herror, Program.run_pure, Program.calls_pure, List.append_nil, and_self]

/-- After the first group, the others are served from the cache that it leaves. -/
theorem kernelsForGroups_cons_ok {context : Key} {group : List DeviceId}
    {rest : List (Key × List DeviceId)} {kernel : CompiledKernel}
    {others : (Except Fault (List (Key × CompiledKernel)) × KernelCache) × σ}
    (hok : (visit h config hardware group f result c x).1.outcome = .ok kernel)
    (hothers : ((kernelsForGroups config hardware f result rest).runFrom
      (visit h config hardware group f result c x).1.after).run h
      (visit h config hardware group f result c x).2 = others) :
    ((kernelsForGroups config hardware f result ((context, group) :: rest)).runFrom c).run h x =
        ((others.1.1.map ((context, kernel) :: ·), others.1.2), others.2) ∧
      ((kernelsForGroups config hardware f result ((context, group) :: rest)).runFrom c).calls h x =
        (visit h config hardware group f result c x).1.calls ++
          ((kernelsForGroups config hardware f result rest).runFrom
            (visit h config hardware group f result c x).1.after).calls h
            (visit h config hardware group f result c x).2 := by
  simp only [visit] at hok hothers
  simp only [kernelsForGroups, Task.runFrom_bind, Program.run_bind, Program.calls_bind, visit, hok,
    hothers]
  obtain ⟨⟨_ | _, _⟩, _⟩ := others <;> simp [Except.map]

/-- A request for the kernels of groups is one request for each of them, up to the first that
fails. -/
theorem kernelsForGroups_run (groups : List (Key × List DeviceId)) :
    (((kernelsForGroups config hardware f result groups).runFrom c).run h x).1.2 =
        (visitAll h config hardware f result (groups.map (·.2)) c x).2.1 ∧
      (((kernelsForGroups config hardware f result groups).runFrom c).run h x).2 =
        (visitAll h config hardware f result (groups.map (·.2)) c x).2.2 := by
  induction groups generalizing c x with
  | nil => exact ⟨rfl, rfl⟩
  | cons g rest ih =>
    cases hoc : (visit h config hardware g.2 f result c x).1.outcome with
    | error e =>
      rw [(kernelsForGroups_cons_error hoc).1, List.map_cons, visitAll_cons_error hoc]
      exact ⟨rfl, rfl⟩
    | ok kernel =>
      rw [(kernelsForGroups_cons_ok hoc rfl).1, List.map_cons, visitAll_cons_ok hoc]
      exact ih

/-- A request for the kernels of groups leaves a consistent cache, with everything that was
there. -/
theorem kernelsForGroups_grown {groups : List (Key × List DeviceId)} (hc : c.Consistent)
    (hproper : Proper f result)
    {answer : Except Fault (List (Key × CompiledKernel)) × KernelCache} {y : σ}
    (hrun : ((kernelsForGroups config hardware f result groups).runFrom c).run h x = (answer, y)) :
    answer.2.Consistent ∧ c.entries <+: answer.2.entries := by
  have hcache : answer.2 = (visitAll h config hardware f result (groups.map (·.2)) c x).2.1 := by
    rw [← (kernelsForGroups_run groups).1, hrun]
  rw [hcache]
  exact visitAll_grown hc hproper

/-- What a request for several groups gives back if it returns: for each group the kernel of its
context, which is kept and is the one generated for the formula. -/
theorem kernelsForGroups_returned {groups : List (Key × List DeviceId)} (hc : c.Consistent)
    (hproper : Proper f result) (hgroups : Grouped hardware groups)
    {kernels : List (Key × CompiledKernel)} {c' : KernelCache} {y : σ}
    (hrun : ((kernelsForGroups config hardware f result groups).runFrom c).run h x =
      ((.ok kernels, c'), y)) :
    List.Forall₂ (fun g k => k.1 = g.1 ∧ c'.find? g.1 (f.kernelShape result) = some k.2 ∧
      KernelSource.ofFormula f (result.getD .unnamed) = .ok k.2.source) groups kernels := by
  induction groups generalizing c x kernels with
  | nil =>
    cases hrun
    exact .nil
  | cons g rest ih =>
    have hends : (visit h config hardware g.2 f result c x).1.Ends hardware := visit_ends
    have hc₁ := hends.consistent hproper hc
    cases hoc : (visit h config hardware g.2 f result c x).1.outcome with
    | error e =>
      rw [(kernelsForGroups_cons_error hoc).1] at hrun
      cases hrun
    | ok kernel =>
      cases hothers : ((kernelsForGroups config hardware f result rest).runFrom
        (visit h config hardware g.2 f result c x).1.after).run h
        (visit h config hardware g.2 f result c x).2 with
      | mk answer y' =>
        rw [(kernelsForGroups_cons_ok hoc hothers).1] at hrun
        -- what the first request keeps is still there when the others are done
        obtain ⟨hc', hgrown⟩ := kernelsForGroups_grown hc₁ hproper hothers
        obtain ⟨_ | kernels', c₂⟩ := answer
        · cases hrun
        · cases hrun
          obtain ⟨first, hfirst, hfind, hsource⟩ := hends.served hproper hc hoc
          obtain ⟨first', hfirst', hcontext⟩ := hgroups g List.mem_cons_self
          obtain rfl : first = first' := Option.mem_unique hfirst hfirst'
          refine .cons ⟨rfl, ?_, hsource⟩ (ih hc₁
            (fun k hk => hgroups k (List.mem_cons_of_mem _ hk)) hothers)
          exact hcontext ▸ hc'.find?_of_grown hgrown hfind

/-- Where a request for several groups stops if it fails: the kernels for the groups before are
kept, the one for the next group is not there, and the groups behind it are not attempted. -/
theorem kernelsForGroups_stopped {groups : List (Key × List DeviceId)} (hc : c.Consistent)
    (hproper : Proper f result) (hgroups : Grouped hardware groups) {e : Fault} {c' : KernelCache}
    {y : σ} (hrun : ((kernelsForGroups config hardware f result groups).runFrom c).run h x =
      ((.error e, c'), y)) :
    ∃ done failing rest, groups = done ++ failing :: rest ∧
      (∀ g ∈ done, (c'.find? g.1 (f.kernelShape result)).isSome) ∧
      c'.find? failing.1 (f.kernelShape result) = none ∧
      ((kernelsForGroups config hardware f result groups).runFrom c).calls h x =
        ((kernelsForGroups config hardware f result (done ++ [failing])).runFrom c).calls h x := by
  induction groups generalizing c x with
  | nil => cases hrun
  | cons g rest ih =>
    have hends : (visit h config hardware g.2 f result c x).1.Ends hardware := visit_ends
    have hc₁ := hends.consistent hproper hc
    obtain ⟨first, hfirst, hcontext⟩ := hgroups g List.mem_cons_self
    cases hoc : (visit h config hardware g.2 f result c x).1.outcome with
    | error e' =>
      have hmissing : c.find? g.1 (f.kernelShape result) = none :=
        hcontext ▸ hends.missing hoc hfirst
      rw [(kernelsForGroups_cons_error hoc).1, hends.unchanged hoc] at hrun
      cases hrun
      -- the requests for all groups and for the first one alone are the same failing request
      refine ⟨[], g, rest, rfl, nofun, hmissing, ?_⟩
      exact (kernelsForGroups_cons_error hoc).2.trans (kernelsForGroups_cons_error hoc).2.symm
    | ok kernel =>
      cases hothers : ((kernelsForGroups config hardware f result rest).runFrom
        (visit h config hardware g.2 f result c x).1.after).run h
        (visit h config hardware g.2 f result c x).2 with
      | mk answer y' =>
        rw [(kernelsForGroups_cons_ok hoc hothers).1] at hrun
        obtain ⟨hc', hgrown⟩ := kernelsForGroups_grown hc₁ hproper hothers
        obtain ⟨e' | kernels', c₂⟩ := answer
        · cases hrun
          obtain ⟨done, failing, behind, rfl, hdone, hmissing, hcalls⟩ :=
            ih hc₁ (fun k hk => hgroups k (List.mem_cons_of_mem _ hk)) hothers
          obtain ⟨first', hfirst', hfind, -⟩ := hends.served hproper hc hoc
          obtain rfl : first = first' := Option.mem_unique hfirst hfirst'
          refine ⟨g :: done, failing, behind, rfl, fun k hk => ?_, hmissing, ?_⟩
          · rcases List.mem_cons.mp hk with rfl | hk
            · exact Option.isSome_of_eq_some (hcontext ▸ hc'.find?_of_grown hgrown hfind)
            · exact hdone k hk
          · rw [(kernelsForGroups_cons_ok hoc hothers).2, hcalls]
            exact (kernelsForGroups_cons_ok hoc rfl).2.symm
        · cases hrun

end

/-- A request for the kernels of all contexts among devices, with the cache that it meets. -/
structure Batch {σ : Type} (h : Handler σ) (config : SessionConfig) (hardware : Hardware)
    (devices : List DeviceId) (f : Formula DataType) (result : Option DataType) (c : KernelCache)
    (x : σ) : Prop where
  /-- if it returns, it gives each context the kernel generated for the formula, which is kept -/
  returned : ∀ kernels c' y,
    ((kernelsFor config hardware devices f result).runFrom c).run h x = ((.ok kernels, c'), y) →
    List.Forall₂ (fun g k => k.1 = g.1 ∧ c'.find? g.1 (f.kernelShape result) = some k.2 ∧
        KernelSource.ofFormula f (result.getD .unnamed) = .ok k.2.source)
      (groupByContext (fun d => (hardware d).context) devices) kernels
  /-- if it fails, the contexts before the failing one stay, and those after it are not attempted -/
  stopped : ∀ e c' y,
    ((kernelsFor config hardware devices f result).runFrom c).run h x = ((.error e, c'), y) →
    ∃ done failing rest,
      groupByContext (fun d => (hardware d).context) devices = done ++ failing :: rest ∧
      (∀ g ∈ done, (c'.find? g.1 (f.kernelShape result)).isSome) ∧
      c'.find? failing.1 (f.kernelShape result) = none ∧
      ((kernelsFor config hardware devices f result).runFrom c).calls h x =
        ((kernelsForGroups config hardware f result (done ++ [failing])).runFrom c).calls h x

section

variable {σ : Type} {h : Handler σ} {config : SessionConfig} {hardware : Hardware} {c : KernelCache}
  {x : σ} {vs : List Visit}

theorem History.consistent_ledger (hist : History h config hardware c x vs) :
    c.Consistent ∧ Ledger hardware c vs := by
  induction hist with
  | start x => exact ⟨consistent_empty, ledger_empty hardware⟩
  | elsewhere y hist ih => exact ih
  | single hist proper ih =>
    obtain ⟨hc, hledger⟩ := ih
    exact ⟨visit_ends.consistent proper hc, hledger.snoc hc visit_ends proper rfl⟩
  | all hist proper ih =>
    obtain ⟨hc, hledger⟩ := ih
    rw [kernelsFor, (kernelsForGroups_run _).1]
    exact ⟨(visitAll_grown hc proper).1, hledger.visitAll hc proper⟩

/-- Whatever a cache has been asked for, and whichever builds have failed: entries are only added,
every kernel returned is the one generated for its own request, no kernel is built twice, the
counters add up, a request that fails changes nothing, and a request for several contexts stops at
the first failure. -/
theorem History.ledger (hist : History h config hardware c x vs) :
    Ledger hardware c vs ∧ ∀ devices f result, Proper f result →
      Batch h config hardware devices f result c x := by
  obtain ⟨hc, hledger⟩ := hist.consistent_ledger
  refine ⟨hledger, fun devices f result hproper =>
    ⟨fun kernels c' y hrun => ?_, fun e c' y hrun => ?_⟩⟩
  · exact kernelsForGroups_returned hc hproper (grouped_groupByContext hardware devices) hrun
  · exact kernelsForGroups_stopped hc hproper (grouped_groupByContext hardware devices) hrun

end

end KernelCache

namespace Sample

/-- Two devices of different contexts. -/
def strangers : Hardware := fun d => ⟨"sample", .number d, .processor, 64, fun _ => 64, 1⟩

/-- Two devices, the second of which may refuse to build. -/
def builders (refusal : Option String) : Machine :=
  .initial #[⟨[], none, true, 0⟩, ⟨[], refusal, true, 0⟩]

/-- The negation of a vector of integers. -/
def negated : Formula DataType := .unary UnaryOp.neg.tag (.vector (.element .int32))

theorem proper_negated : KernelCache.Proper negated (some (.element .int32)) :=
  ⟨by decide, by simp⟩

end Sample

/-- The second device refuses a build, and then does not. -/
theorem KernelCache.History.ledger_refused :
    ∃ c x vs, History Machine.handle {} Sample.strangers c x vs ∧
      Ledger Sample.strangers c vs ∧ vs.map (·.outcome.isOk) = [true, false, true, true] ∧
      c.builds = 2 ∧ c.hits = 1 := by
  have hist : History Machine.handle {} Sample.strangers _ _ _ :=
    @History.all _ _ _ _ _ _ _ [0, 1] _ _ (.elsewhere (Sample.builders none)
      (@History.all _ _ _ _ _ _ _ [0, 1] _ _ (.start (Sample.builders (some "refused")))
        Sample.proper_negated)) Sample.proper_negated
  exact ⟨_, _, _, hist, (History.ledger hist).1, by decide +kernel, by decide +kernel,
    by decide +kernel⟩

end DistributedVector
