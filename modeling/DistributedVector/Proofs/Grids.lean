import DistributedVector.Proofs.Dispatch
import DistributedVector.Proofs.Partitions
import DistributedVector.Proofs.Strides

/-!
# Every launch covers its slice

A workgroup that is chosen when a kernel is built has threads, whatever the limits of the devices
are. The number of threads on a device is a multiple of it, so that dividing by it gives the grid
without a rest; there is a workgroup for each slice with elements, and a processor has a thread for
each element and less than a workgroup in excess. The threads of such a launch visit each index of
the slice once.

## Main definitions

* `Spans` — a grid that is right for a slice
* `Call.Covers` — a launch with a right grid

## Main results

* `spans_fdiv` — the threads of a launch make a right grid
* `Vector.dispatch_covers` — launches have right grids
* `Arises.launches_cover` — all together
-/

namespace DistributedVector

/-- A number of workgroups that is right for a slice of `n` elements on a device: the threads are
those that the device is to have, and on a processor these are enough and less than a workgroup too
many. -/
structure Spans (kind : DeviceClass) (computeUnits n waves grid workgroup : Int) : Prop where
  workgroup_pos : 1 ≤ workgroup
  grid_pos : 1 ≤ grid
  threads : globalSize kind computeUnits n workgroup waves = .ok (grid * workgroup)
  covers : kind = .processor → n ≤ grid * workgroup ∧ grid * workgroup < n + workgroup

theorem one_le_mul {a b : Int} (ha : 1 ≤ a) (hb : 1 ≤ b) : 1 ≤ a * b := by
  have := Int.mul_pos (show 0 < a by omega) (show 0 < b by omega)
  omega

/-- There is a number of threads for each workgroup with threads. -/
theorem exists_globalSize {kind : DeviceClass} {computeUnits n waves workgroup : Int}
    (hworkgroup : 1 ≤ workgroup) : ∃ threads,
    globalSize kind computeUnits n workgroup waves = .ok threads := by
  cases h : globalSize kind computeUnits n workgroup waves with
  | ok threads => exact ⟨threads, rfl⟩
  | error e => exact absurd h (globalSize_ne_error hworkgroup)

/-- The threads on a device, divided by the workgroup, make a right grid. -/
theorem spans_fdiv {kind : DeviceClass} {computeUnits n waves workgroup threads : Int}
    (hunits : 1 ≤ computeUnits) (hn : 1 ≤ n) (hwaves : 1 ≤ waves) (hworkgroup : 1 ≤ workgroup)
    (hthreads : globalSize kind computeUnits n workgroup waves = .ok threads) :
    Spans kind computeUnits n waves (threads.fdiv workgroup) workgroup := by
  -- it is enough that the threads are a positive multiple of the workgroup
  have hspans : ∀ q, threads = q * workgroup → 1 ≤ q →
      (kind = .processor → n ≤ threads ∧ threads < n + workgroup) →
      Spans kind computeUnits n waves (threads.fdiv workgroup) workgroup := by
    rintro q rfl hq hcovers
    have hdiv : (q * workgroup).fdiv workgroup = q := Int.mul_fdiv_cancel q (by omega)
    rw [hdiv]
    exact ⟨hworkgroup, hq, hthreads, hcovers⟩
  cases kind with
  | processor =>
    rw [globalSize, if_neg (by omega)] at hthreads
    obtain ⟨q, hq, hlower, hupper⟩ := alignUp_spec (n := n) hworkgroup
    obtain rfl := Except.ok.inj hthreads
    refine hspans q hq ?_ fun _ => ⟨hlower, hupper⟩
    have hpos : 0 < q * workgroup := by omega
    exact Int.pos_of_mul_pos_left hpos (by omega)
  | graphics =>
    obtain rfl := Except.ok.inj hthreads
    refine hspans (computeUnits * waves) (by
      rw [Int.mul_assoc, Int.mul_comm workgroup, Int.mul_assoc])
      (one_le_mul hunits hwaves) fun hkind => ?_
    cases hkind

theorem SessionConfig.one_le_wavesPerUnit {config : SessionConfig}
    (h : config.validate = .ok config) : 1 ≤ config.wavesPerUnit := by
  unfold validate at h
  split at h
  · cases h
  · split at h
    · cases h
    · omega

/-- The threads of a right grid cover the slice if their number and its length together fit in 64
bits. -/
theorem Spans.loop_covers {kind : DeviceClass} {computeUnits waves grid workgroup : Int} {n : Nat}
    (h : Spans kind computeUnits n waves grid workgroup) (hfits : n + grid * workgroup ≤ 2 ^ 64) :
    strideLoop.Covers grid.toNat workgroup.toNat n := by
  obtain ⟨hworkgroup, hgrid, -⟩ := h
  obtain ⟨g, rfl⟩ := Int.eq_ofNat_of_zero_le (show 0 ≤ grid by omega)
  obtain ⟨w, rfl⟩ := Int.eq_ofNat_of_zero_le (show 0 ≤ workgroup by omega)
  exact strideLoop_covers (by exact_mod_cast hfits)
    (Nat.mul_pos (by exact_mod_cast hgrid) (by exact_mod_cast hworkgroup))

/-- A call launches a kernel on a shard with elements, whose length is the first argument, with a
grid that is right for the shard. If threads and elements together fit in 64 bits, the threads cover
the shard. -/
def Call.Covers (session : Session) (d : Descriptor) (c : Call) : Prop :=
  ∃ s ∈ d.shards, ∃ source grid workgroup rest, s.length ≠ 0 ∧
    c = .launch s.device source grid workgroup
      (.scalar (.element .uint64) (.int s.length) :: .buffer s.buffer :: rest) ∧
    Spans (session.hardware s.device).kind (session.hardware s.device).computeUnits s.length
      session.config.wavesPerUnit grid workgroup ∧
    (s.length + grid * workgroup ≤ 2 ^ 64 → strideLoop.Covers grid.toNat workgroup.toNat s.length)

namespace Vector

open Descriptor

variable {session : Session} {kernels : List (Key × CompiledKernel)} {d d' : Descriptor}
  {leaves : List (Terminal Descriptor)} {before : List Shard} {s : Shard} {after : List Shard}

/-- All devices of a session have compute units, workgroups for them, and kernels with threads for
the devices of a vector. -/
structure Launchers (session : Session) (kernels : List (Key × CompiledKernel)) (d : Descriptor) :
    Prop where
  units : ∀ device, 1 ≤ (session.hardware device).computeUnits
  waves : 1 ≤ session.config.wavesPerUnit
  workgroups : ∀ s ∈ d.shards, ∀ kernel,
    kernels.lookup (session.hardware s.device).context = some kernel → 1 ≤ kernel.workgroup

/-- A launch on a shard has a right grid. -/
theorem launch_covers (h : Launchers session kernels d) (hd : d.shards = before ++ s :: after)
    (hs : s.length ≠ 0) (hsame : d'.forget = d.forget) :
    (launch session kernels leaves before.length s).Ensures (.only (Call.Covers session d))
      (fun _ d'' _ => d''.forget = d.forget) (fun _ _ _ => True) d' () := by
  have hmem : s ∈ d.shards := hd ▸ List.mem_append_right _ List.mem_cons_self
  rw [launch]
  split
  · exact trivial
  next kernel hlookup =>
    have hworkgroup := h.workgroups s hmem kernel hlookup
    simp only [Task.ensures_bind, Task.ensures_get, Task.ensures_ofExcept, Task.ensures_modify,
      ensures_issue]
    refine ⟨fun threads hthreads => ⟨fun args hargs => ⟨?_, ?_⟩, fun _ _ => trivial⟩,
      fun _ _ => trivial⟩
    · rw [bindArguments_eq hd hsame] at hargs
      obtain ⟨rest, -, rfl⟩ := map_eq_ok_iff.mp hargs
      have hspans := spans_fdiv (h.units s.device) (by omega) h.waves hworkgroup hthreads
      exact ⟨s, hmem, _, _, _, rest, hs, rfl, hspans, hspans.loop_covers⟩
    · exact fun _ _ _ => ⟨fun _ _ => (forget_setEvent _ _).trans hsame, fun _ _ => trivial⟩

theorem launchFrom_covers (h : Launchers session kernels d) {rest : List Shard} :
    ∀ {before : List Shard} {d' : Descriptor}, d.shards = before ++ rest → d'.forget = d.forget →
    (launchFrom session kernels leaves before.length rest).Ensures (.only (Call.Covers session d))
      (fun _ d'' _ => d''.forget = d.forget) (fun _ _ _ => True) d' () := by
  induction rest with
  | nil => exact fun _ hsame => hsame
  | cons s rest ih =>
    intro before d' hd hsame
    have hrest := fun {d'} => @ih (before ++ [s]) d' (by simp [hd])
    simp only [List.length_append, List.length_singleton] at hrest
    simp only [launchFrom, Task.ensures_ite, Task.ensures_bind]
    refine ⟨fun _ => hrest hsame, fun hs => ?_⟩
    exact (launch_covers h hd hs hsame).imp_ok fun _ _ _ hsame' => hrest hsame'

/-- All launches of a formula have right grids. -/
theorem dispatch_covers (h : Launchers session kernels d) (f : Formula Descriptor) :
    (dispatch session kernels f).Ensures (.only (Call.Covers session d))
      (fun _ d' _ => d'.forget = d.forget) (fun _ _ _ => True) d () := by
  rw [dispatch, Task.ensures_bind, Task.ensures_get]
  exact launchFrom_covers h (List.nil_append d.shards).symm rfl

end Vector

/-- The kernels that a session answers for the devices of a vector have threads in their
workgroups. -/
theorem Session.Regular.launchers {σ : Type} {h : Handler σ} {x x' : σ} {session session' : Session}
    {d : Descriptor} {f : Formula DataType} {result : Option DataType}
    {kernels : List (Key × CompiledKernel)} (hsession : session.Regular)
    (hunits : ∀ device, 1 ≤ (session.hardware device).computeUnits)
    (hkernels : ((Session.kernelsFor d.devices f result).runFrom session).run h x =
      ((.ok kernels, session'), x')) : Vector.Launchers session' kernels d := by
  obtain ⟨hlater, hkept⟩ := (Session.kernelsFor_kept d.devices).of_run_ok (h.meets_only _) hkernels
  have hregular := hlater.regular hsession
  refine ⟨hlater.hardware ▸ hunits, SessionConfig.one_le_wavesPerUnit hregular.config, ?_⟩
  intro s hs kernel hlookup
  obtain ⟨kernel', hlookup', hfind⟩ := hkept s.device (List.mem_map_of_mem hs)
  rw [hlater.hardware] at hlookup
  obtain rfl := Option.some_inj.mp (hlookup'.symm.trans hlookup)
  exact (hregular.cache.find? hfind).2

section Runs

variable {σ : Type} {h : Handler σ} {view : σ → Allocated} {S : Store} {x : σ}

/-- Every launch covers its slice. With settings that are accepted, a workgroup has threads whatever
the limits are, and the threads that a device is to have for a slice with elements, divided by the
workgroup, make a right grid. Where a session answers kernels for a vector, all launches that follow
have right grids. And the threads of any grid visit each index of a slice once if their number and
its length together fit in 64 bits. -/
theorem Arises.launches_cover :
    (∀ (config : SessionConfig) (limits : List Int) (kind : DeviceClass) (computeUnits n : Int),
      config.validate = .ok config → 1 ≤ computeUnits → 1 ≤ n →
      1 ≤ selectWorkgroup limits config.maxWorkgroup ∧
      ∃ threads, globalSize kind computeUnits n (selectWorkgroup limits config.maxWorkgroup)
          config.wavesPerUnit = .ok threads ∧
        Spans kind computeUnits n config.wavesPerUnit
          (threads.fdiv (selectWorkgroup limits config.maxWorkgroup))
          (selectWorkgroup limits config.maxWorkgroup)) ∧
    (∀ (k : SessionId) (session session' : Session) (d : Descriptor) (f : Formula DataType)
      (result : Option DataType) (kernels : List (Key × CompiledKernel)) (x' : σ)
      (g : Formula Descriptor), h.Meets view allocations → Arises h view S x →
      S.sessions[k]? = some session → (∀ device, 1 ≤ (session.hardware device).computeUnits) →
      ((Session.kernelsFor d.devices f result).runFrom session).run h x =
      ((.ok kernels, session'), x') →
      ∀ c ∈ ((Vector.dispatch session' kernels g).runFrom d).calls h x', c.Covers session' d) ∧
    ∀ g w p : Nat, p + g * w ≤ 2 ^ 64 → 0 < g * w → strideLoop.Covers g w p := by
  refine ⟨fun config limits kind computeUnits n hconfig hunits hn => ?_, ?_,
    fun g w p hfits hpos => strideLoop_covers hfits hpos⟩
  · have hworkgroup := one_le_selectWorkgroup limits (config.one_le_maxWorkgroup hconfig)
    obtain ⟨threads, hthreads⟩ : ∃ threads, globalSize kind computeUnits n
        (selectWorkgroup limits config.maxWorkgroup) config.wavesPerUnit = .ok threads :=
      exists_globalSize hworkgroup
    exact ⟨hworkgroup, threads, hthreads,
      spans_fdiv hunits hn (SessionConfig.one_le_wavesPerUnit hconfig) hworkgroup hthreads⟩
  · intro k session session' d f result kernels x' g meets hS hk hunits hkernels c hc
    have hregular := (hS.owned meets).sessions k session hk
    obtain ⟨_, hcovers⟩ := Program.Ensures.of_mem_calls (h.meets_only _)
      (Vector.dispatch_covers (hregular.launchers hunits hkernels) g) hc
    exact hcovers

end Runs

open Sample in
/-- A hundred elements on a processor that runs workgroups of up to a hundred threads get two
workgroups of 64. The launches of a negation on the two halves of a vector have right grids. -/
theorem Arises.launches_cover_halves :
    Spans .processor 1 100 4 2 (selectWorkgroup [300, 100] 1024) ∧ strideLoop.Covers 2 64 100 ∧
    ∃ session session' d kernels x' first second,
      (halves (shelf 3)).1.vectors[0]? = some d ∧ (halves (shelf 3)).1.sessions[0]? = some session ∧
      ((Session.kernelsFor d.devices (.unary UnaryOp.neg.tag (.vector (.element .int32)))
        (some (.element .int32))).runFrom session).run (shelf 3) (halves (shelf 3)).2 =
          ((.ok kernels, session'), x') ∧
      ((Vector.dispatch session' kernels (.unary UnaryOp.neg.tag (.vector d))).runFrom d).calls
        (shelf 3) x' = [first, second] ∧
      first.Covers session' d ∧ second.Covers session' d := by
  obtain ⟨hgrids, hlaunches, hloop⟩ := @Arises.launches_cover _ (shelf 3) (fun s b => s[b]?)
    (halves (shelf 3)).1 (halves (shelf 3)).2
  refine ⟨?_, hloop 2 64 100 (by decide) (by decide), ?_⟩
  · obtain ⟨-, threads, hthreads, hspans⟩ :=
      hgrids {} [300, 100] .processor 1 100 rfl (by decide) (by decide)
    have hworkgroup : selectWorkgroup [300, 100] 1024 = 64 := by decide +kernel
    have h128 : threads = 128 := by
      rw [hworkgroup] at hthreads
      exact (Except.ok.inj hthreads).symm
    rw [h128, hworkgroup] at hspans
    rw [hworkgroup]
    exact hspans
  · let d : Descriptor := ⟨0, .int32, .readWrite, [⟨0, 1, some 0, none⟩, ⟨1, 2, some 1, none⟩]⟩
    have hcovers := hlaunches 0 _ _ d (.unary UnaryOp.neg.tag (.vector (.element .int32)))
      (some (.element .int32)) _ _ (.unary UnaryOp.neg.tag (.vector d)) (shelf_meets 3)
      (arises_halves (shelf 3)) rfl (fun _ => Int.le_refl 1) rfl
    exact ⟨_, _, _, _, _, _, _, rfl, rfl, rfl, rfl, hcovers _ List.mem_cons_self,
      hcovers _ (List.mem_cons_of_mem _ List.mem_cons_self)⟩

end DistributedVector
