import DistributedVector.Proofs.Exchange
import DistributedVector.Proofs.Plan
import DistributedVector.Proofs.Refinement

/-!
# Interrupted assignments

An assignment without products has two halves. What can go wrong with its target, its operands and
its kernels goes wrong in the first one, when nothing has been changed; the second half stores into
the shards with elements, in order, and can be interrupted by a command that fails. Then the shards
before have their new elements and the events of the commands that stored them, and everything else
is as it was, if devices leave their memory alone when they fail.

## Main definitions

* `Interrupted` — commands that store into shards, up to one that fails
* `Stored` — the commands before it, and the shards with their events
* `Vector.InterruptedBehind` — what is left when commands on the last shards are interrupted
* `Store.CutShort` — what an interrupted assignment leaves

## Main results

* `Interrupted.split` — an interruption divides the shards
* `Vector.launchFrom_gently`, `Vector.copyShards_gently` — launches and copies
* `Reachable.assign_all_or_prefix` — all assignments that fail
-/

namespace DistributedVector

section Shards

/-- Commands have stored into the shards with elements, in order: the shards, the commands, and the
shards with the events of the commands. -/
inductive Stored : List Shard → List Exchange → List Shard → Prop
  | nil : Stored [] [] []
  | passed {s : Shard} {shards noted : List Shard} {done : List Exchange} (empty : s.length = 0)
    (rest : Stored shards done noted) : Stored (s :: shards) done (s :: noted)
  | stored {s : Shard} {y : Exchange} {e : Event} {shards noted : List Shard} {done : List Exchange}
    (filled : s.length ≠ 0) (into : y.1.StoresInto s) (event : y.event? = some e)
    (rest : Stored shards done noted) :
    Stored (s :: shards) (y :: done) ({ s with event := some e } :: noted)

/-- Commands store the new elements into the shards with elements, in order, until one fails. They
change the memory and note their events; the one that fails changes nothing. -/
inductive Interrupted (fault : DeviceFault) :
    List Scalar → List Shard → Memory → List Shard → Memory → List Exchange → Prop
  | failed {new : List Scalar} {s : Shard} {rest : List Shard} {m : Memory} {y : Exchange}
    (filled : s.length ≠ 0) (into : y.1.StoresInto s) (failed : y.fault? = some fault) :
    Interrupted fault new (s :: rest) m (s :: rest) m [y]
  | passed {new : List Scalar} {s : Shard} {rest noted : List Shard} {m m' : Memory}
    {ys : List Exchange} (empty : s.length = 0)
    (behind : Interrupted fault new rest m noted m' ys) :
    Interrupted fault new (s :: rest) m (s :: noted) m' ys
  | stored {new : List Scalar} {s : Shard} {rest noted : List Shard}
    {m m₁ m' : Memory} {y : Exchange} {e : Event} {ys : List Exchange} (filled : s.length ≠ 0)
    (into : y.1.StoresInto s) (event : y.event? = some e) (memory : m.Differs s.buffer.toList [] m₁)
    (values : s.contents m₁ = new.take s.length)
    (behind : Interrupted fault (new.drop s.length) rest m₁ noted m' ys) :
    Interrupted fault new (s :: rest) m ({ s with event := some e } :: noted) m' (y :: ys)

/-- An interruption divides the shards: those before it have been stored into, and neither the shard
of the command that has failed nor those behind it have changed. -/
theorem Interrupted.split {fault : DeviceFault} {new : List Scalar} {shards noted : List Shard}
    {m m' : Memory} {ys : List Exchange} (h : Interrupted fault new shards m noted m' ys)
    {type : ElementType} {access : Access} (hv : ShardsValid m type access shards) :
    ∃ before s after stored done y, shards = before ++ s :: after ∧ noted = stored ++ s :: after ∧
      s.length ≠ 0 ∧ ys = done ++ [y] ∧ Stored before done stored ∧ y.1.StoresInto s ∧
      y.fault? = some fault ∧ m.Differs (buffersOf before) [] m' ∧
      contentsOf m' before = new.take (total (before.map (·.length))) := by
  induction h with
  | @failed new s rest m y hfilled hinto hfailed =>
    exact ⟨[], s, rest, [], [], y, rfl, rfl, hfilled, rfl, .nil, hinto, hfailed, .refl _ _ _, rfl⟩
  | @passed new s rest noted m m' ys hempty hbehind ih =>
    obtain ⟨before, s', after, stored, done, y, rfl, rfl, hfilled, rfl, hstored, hinto, hfailed,
      hdiff, hvalues⟩ := ih hv.tail
    have hnone : s.buffer = none := hv.head.absent.mpr hempty
    refine ⟨s :: before, s', after, s :: stored, done, y, rfl, rfl, hfilled, rfl,
      .passed hempty hstored, hinto, hfailed, ?_, ?_⟩
    · rw [buffersOf_cons, hnone]
      exact hdiff
    · rw [contentsOf_cons, Shard.contents_of_none hnone, List.nil_append, hvalues, List.map_cons,
        total, hempty, Nat.zero_add]
  | @stored new s rest noted m m₁ m' y e ys hfilled hinto hevent hdiff hvalues hbehind ih =>
    obtain ⟨before, s', after, stored, done, y', rfl, rfl, hfilled', rfl, hstored, hinto', hfailed,
      hdiff', hvalues'⟩ := ih (hv.tail.of_differs hdiff)
    refine ⟨s :: before, s', after, { s with event := some e } :: stored, y :: done, y', rfl, rfl,
      hfilled', rfl, .stored hfilled hinto hevent hstored, hinto', hfailed, ?_, ?_⟩
    · rw [buffersOf_cons]
      exact hdiff.append hdiff'
    · -- what is stored behind a shard leaves its buffer alone
      have hkept : s.contents m' = s.contents m₁ :=
        (hv.head.of_differs hdiff).contents_of_differs hdiff' fun b hb hmem => by
          refine hv.head_notMem hb ?_
          rw [buffersOf_append]
          exact List.mem_append_left _ hmem
      rw [contentsOf_cons, hkept, hvalues, hvalues', List.map_cons, total, List.take_add]

theorem Stored.fault?_eq_none {shards noted : List Shard} {done : List Exchange}
    (h : Stored shards done noted) : ∀ y ∈ done, y.fault? = none := by
  induction h with
  | nil => exact fun y hy => absurd hy List.not_mem_nil
  | passed _ _ ih => exact ih
  | stored _ _ hevent _ ih => exact List.forall_mem_cons.mpr ⟨Exchange.fault?_of_event? hevent, ih⟩

end Shards

/-- The event of the first of some shards is noted. -/
theorem Descriptor.setEvent_append (d : Descriptor) (before : List Shard) (s : Shard)
    (after : List Shard)
    (e : Event) : ({ d with shards := before ++ s :: after } : Descriptor).setEvent
      before.length e = { d with shards := before ++ [{ s with event := some e }] ++ after } := by
  simp [setEvent, List.modify_eq_take_cons_drop]

namespace Vector

open Descriptor

variable {V : Type} {A : Arithmetic V} {F : Fleet} {m m' : Memory} {d : Descriptor}
  {f : Formula Descriptor} {session : Session} {kernels : List (Key × CompiledKernel)}
  {before : List Shard} {s : Shard} {after : List Shard} {ys : List Exchange}

/-- Every number in a formula fits its type. -/
def Fitting (f : Formula Descriptor) : Prop :=
  ∀ x t, .scalar x t ∈ f.terminals → ∃ arg, scalarArgument x t = .ok arg

/-- Where all numbers fit, every leaf gives an argument. -/
theorem Launching.leafArgument_eq_ok (h : Launching F m d f kernels) (hfit : Fitting f)
    (hd : d.shards = before ++ s :: after) (hs : s.length ≠ 0)
    (hdiff : m.Differs (buffersOf before) [] m') {t : Terminal Descriptor} (ht : t ∈ f.terminals) :
    ∃ arg, leafArgument before.length t = .ok arg := by
  cases t with
  | vector w =>
    obtain ⟨b, data, hbind, -⟩ := (h.leaves w ht).buffer h.valid hd hs hdiff
    exact ⟨_, hbind⟩
  | scalar x t =>
    obtain ⟨arg, harg⟩ := hfit x t ht
    exact ⟨arg, by rw [leafArgument, harg]; rfl⟩

/-- Where all numbers fit, the formula has a result at every position. -/
theorem Launching.exists_resultAt (h : Launching F m d f kernels) (hfit : Fitting f) {i : Nat}
    (hi : i < d.size) : ∃ x, resultAt A m d f i = some x := by
  -- the kernel of the shard that owns the position tells what the formula is
  obtain ⟨before, s, after, ho⟩ := exists_owner hi
  obtain ⟨kernel, -, hserves, -⟩ :=
    h.kernels s (by rw [ho.shards]; exact List.mem_append_right _ List.mem_cons_self)
  obtain ⟨j, rfl⟩ := Nat.exists_eq_add_of_le ho.lower
  have hj : j < s.length := Nat.lt_of_add_lt_add_left ho.upper
  have hs : s.length ≠ 0 := Nat.ne_of_gt (Nat.zero_lt_of_lt hj)
  obtain ⟨args, hargs⟩ : ∃ args, f.argumentsAt A (Descriptor.look m)
      (total (before.map (·.length)) + j) = some args :=
    exists_mapM fun t ht => by
      obtain ⟨arg, harg⟩ := h.leafArgument_eq_ok hfit ho.shards hs (.refl _ [] m) ht
      obtain ⟨k, hk⟩ := List.getElem?_of_mem ht
      obtain ⟨p, -, hp⟩ := getElem?_of_forall₂ hserves.parameters.flip hk
      obtain ⟨v, -, hv⟩ := (leafArgument_fits (A := A) hp (fun w hw => h.leaves w (hw ▸ ht)) h.valid
        ho.shards hs (.refl _ [] m) harg).2 j hj
      exact ⟨v, hv⟩
  exact ⟨_, Formula.kernelAt_eq_some.mpr ⟨_, args, hserves.text, hargs, rfl⟩⟩

theorem Launching.exists_results (h : Launching F m d f kernels) (hfit : Fitting f) :
    ∃ new, A.byKernel.results d.type d.size (Descriptor.look m) f = some new ∧
      ∀ i, i < d.size → resultAt A m d f i = new[i]? := by
  refine ⟨(List.range d.size).map fun i => (resultAt A m d f i).getD default,
    mapM_range_eq_some (by simp) fun i hi => ?_, fun i hi => ?_⟩ <;>
  · obtain ⟨x, hx⟩ := h.exists_resultAt (A := A) hfit hi
    simp only [List.getElem?_map, List.getElem?_range hi, Option.map_some, hx, Option.getD_some]
    try exact hx

/-- Without a number that fits its type, nothing is launched. -/
theorem launchFrom_unfit {μ : Type} {K : Contract μ} {z : μ} (hunfit : ¬ Fitting f)
    {rest : List Shard} : ∀ (before : List Shard), d.shards = before ++ rest →
    (launchFrom session kernels f.terminals before.length rest).Ensures K
      (fun _ d' z' => d' = d ∧ z' = z) (fun _ d' z' => d' = d ∧ z' = z) d z := by
  induction rest with
  | nil => exact fun _ _ => ⟨rfl, rfl⟩
  | cons s rest ih =>
    intro before hd
    have hrest := ih (before ++ [s]) (by rw [hd, List.append_assoc]; rfl)
    rw [List.length_append, List.length_singleton] at hrest
    simp only [launchFrom, Task.ensures_ite, Task.ensures_bind]
    refine ⟨fun _ => hrest, fun _ => ?_⟩
    unfold launch
    dsimp only
    split
    · exact ⟨rfl, rfl⟩
    simp only [Task.ensures_bind, Task.ensures_ofExcept, Task.ensures_get]
    refine ⟨fun _ _ => ⟨fun args hargs => absurd ?_ hunfit, fun _ _ => ⟨trivial, trivial⟩⟩,
      fun _ _ => ⟨trivial, trivial⟩⟩
    -- where all arguments have been bound, all numbers fit
    rw [bindArguments_eq hd rfl] at hargs
    obtain ⟨rest, hrest, -⟩ := map_eq_ok_iff.mp hargs
    intro x t ht
    obtain ⟨k, hk⟩ := List.getElem?_of_mem ht
    obtain ⟨arg, -, harg⟩ := getElem?_of_forall₂ (mapM_eq_ok_iff.mp hrest) hk
    exact ⟨arg, mapError_eq_ok_iff.mp harg⟩

/-- A launch on a shard stores the new elements there, or fails and changes nothing. -/
theorem launch_gently (h : Launching F m d f kernels)
    (hthreads : ∀ d source w, F.suits d source w → 1 ≤ w)
    (hhardware : session.hardware = F.hardware) (hfit : Fitting f)
    (hd : d.shards = before ++ s :: after) (hs : s.length ≠ 0) {d' : Descriptor}
    (hsame : d'.forget = d.forget) (hdiff : m.Differs (buffersOf before) [] m') :
    (launch session kernels f.terminals before.length s).Ensures (gentleContract A F.suits)
      (fun _ d'' z => ∃ y e, y.1.StoresInto s ∧ y.event? = some e ∧ z.2 = ys ++ [y] ∧
        d'' = d'.setEvent before.length e ∧ m'.Differs s.buffer.toList [] z.1 ∧ ∀ i, i < s.length →
          resultAt A m d f (total (before.map (·.length)) + i) = (s.contents z.1)[i]?)
      (fun e d'' z => ∃ y fault, e = .device fault ∧ y.1.StoresInto s ∧ y.fault? = some fault ∧
        d'' = d' ∧ z = (m', ys ++ [y])) d' (m', ys) := by
  obtain ⟨kernel, hlookup, hserves, hsuits⟩ :=
    h.kernels s (by rw [hd]; exact List.mem_append_right _ List.mem_cons_self)
  have hdevice : (session.hardware s.device).context = (F.hardware s.device).context := by
    rw [hhardware]
  simp only [launch, hdevice, hlookup, Task.ensures_bind, Task.ensures_get, Task.ensures_ofExcept,
    Task.ensures_modify]
  refine ⟨fun threads _ => ⟨fun args hargs => ?_, fun e he => ?_⟩,
    fun e he => absurd he (globalSize_ne_error (hthreads _ _ _ hsuits))⟩
  · rw [bindArguments_eq hd hsame] at hargs
    obtain ⟨rest, hrest, rfl⟩ := map_eq_ok_iff.mp hargs
    obtain ⟨b, data, hb, hsize, hrun, hresults⟩ := h.bound (A := A) hd hs hdiff hserves hrest
    have hinto : Call.StoresInto s (.launch s.device kernel.source (threads.fdiv kernel.workgroup)
        kernel.workgroup
        (.scalar (.element .uint64) (.int s.length) :: .buffer s.buffer :: rest)) := ⟨rfl, rfl⟩
    refine ensures_launch_gently hsuits hrun (by rw [hb, hsize])
      (fun e values hvsize hcomputes => ?_) fun e => ⟨_, e, rfl, hinto, rfl, rfl, rfl⟩
    refine ⟨_, e, hinto, rfl, rfl, rfl, ?_, fun i hi => ?_⟩
    · rw [hb]
      exact Memory.Differs.setBuffer hrun.present hvsize
    · rw [Shard.contents_of_buffer hb (m'.setBuffer_buffer_self b _)]
      exact hresults _ hcomputes i hi
  · -- the arguments are there, since the scalars fit
    rw [bindArguments_eq hd hsame] at he
    obtain ⟨t, ht, he⟩ := exists_of_mapM_eq_error (map_eq_error_iff.mp he)
    obtain ⟨arg, harg⟩ := h.leafArgument_eq_ok hfit hd hs hdiff ht
    cases harg.symm.trans he

/-- What is left of a vector, the memory and a record of commands when commands on its last shards,
behind others, have been interrupted. -/
def InterruptedBehind (d : Descriptor) (before : List Shard) (new : List Scalar)
    (shards : List Shard) (m : Memory) (ys : List Exchange) (e : Fault) (d' : Descriptor)
    (z : Memory × List Exchange) :
    Prop :=
  ∃ fault noted zs, e = .device fault ∧ Interrupted fault new shards m noted z.1 zs ∧
    d' = { d with shards := before ++ noted } ∧ z.2 = ys ++ zs

namespace InterruptedBehind

variable {before rest : List Shard} {s : Shard} {new : List Scalar} {m₁ : Memory}
  {ys : List Exchange} {y : Exchange} {e : Fault} {d' : Descriptor} {z : Memory × List Exchange}

theorem failed {fault : DeviceFault} (hfilled : s.length ≠ 0) (hinto : y.1.StoresInto s)
    (hfault : y.fault? = some fault) :
    InterruptedBehind d before new (s :: rest) m ys (.device fault)
      { d with shards := before ++ s :: rest } (m, ys ++ [y]) :=
  ⟨fault, s :: rest, [y], rfl, .failed hfilled hinto hfault, rfl, rfl⟩

theorem passed (hempty : s.length = 0)
    (h : InterruptedBehind d (before ++ [s]) new rest m ys e d' z) :
    InterruptedBehind d before new (s :: rest) m ys e d' z := by
  obtain ⟨fault, noted, zs, rfl, hinterrupted, rfl, hzs⟩ := h
  exact ⟨fault, s :: noted, zs, rfl, .passed hempty hinterrupted, by simp, hzs⟩

theorem stored {event : Event} (hfilled : s.length ≠ 0) (hinto : y.1.StoresInto s)
    (hevent : y.event? = some event) (hmemory : m.Differs s.buffer.toList [] m₁)
    (hvalues : s.contents m₁ = new.take s.length)
    (h : InterruptedBehind d (before ++ [{ s with event := some event }])
      (new.drop s.length) rest m₁
      (ys ++ [y]) e d' z) : InterruptedBehind d before new (s :: rest) m ys e d' z := by
  obtain ⟨fault, noted, zs, rfl, hinterrupted, rfl, hzs⟩ := h
  exact ⟨fault, { s with event := some event } :: noted, y :: zs, rfl,
    .stored hfilled hinto hevent hmemory hvalues hinterrupted, by simp, by simp [hzs]⟩

end InterruptedBehind

/-- Launches on the last shards can only be interrupted. -/
theorem launchFrom_gently (h : Launching F m d f kernels)
    (hthreads : ∀ d source w, F.suits d source w → 1 ≤ w)
    (hhardware : session.hardware = F.hardware) (hfit : Fitting f) {new : List Scalar}
    (hnew : ∀ i, i < d.size → resultAt A m d f i = new[i]?)
    {rest : List Shard} : ∀ (before noted : List Shard) {m' : Memory} {ys : List Exchange},
    d.shards = before ++ rest → noted.map Shard.forget = before.map Shard.forget →
    m.Differs (buffersOf before) [] m' →
    (launchFrom session kernels f.terminals before.length rest).Ensures (gentleContract A F.suits)
      (fun _ _ _ => True)
      (InterruptedBehind d noted (new.drop (total (before.map (·.length)))) rest m' ys)
      { d with shards := noted ++ rest } (m', ys) := by
  induction rest with
  | nil =>
    intro _ _ _ _ _ _ _
    trivial
  | cons s rest ih =>
    intro before noted m' ys hd hnoted hdiff
    have hvalid : ShardsValid m d.type d.access (before ++ s :: rest) := hd ▸ h.valid
    have hd' : d.shards = (before ++ [s]) ++ rest := by rw [hd, List.append_assoc]; rfl
    have hlength : noted.length = before.length := by simpa using congrArg List.length hnoted
    have hsame : ({ d with shards := noted ++ s :: rest } : Descriptor).forget = d.forget := by
      simp only [forget, hd, List.map_append, hnoted]
    have hdrop : (new.drop (total (before.map (·.length)))).drop s.length =
        new.drop (total ((before ++ [s]).map (·.length))) := by
      rw [List.drop_drop, total_append_singleton]
    simp only [launchFrom, Task.ensures_ite, Task.ensures_bind]
    refine ⟨fun hzero => ?_, fun hs => ?_⟩
    · -- a shard without elements has no buffer and takes none of the new elements
      have hdiff₁ : m.Differs (buffersOf (before ++ [s])) [] m' := by
        rw [buffersOf_append_singleton]
        exact hdiff.mono (List.subset_append_left _ _) (List.Subset.refl _)
      have hrest := @ih (before ++ [s]) (noted ++ [s]) m' ys hd' (by simp [hnoted]) hdiff₁
      rw [List.length_append, List.length_singleton, List.append_assoc, List.singleton_append,
        ← hdrop, hzero, List.drop_zero] at hrest
      exact hrest.imp (fun _ _ _ h => h) fun _ _ _ => .passed hzero
    refine (launch_gently h hthreads hhardware hfit hd hs hsame hdiff).imp ?_ ?_
    · rintro _ d₁ ⟨m₁, ys₁⟩ ⟨y, e, hinto, hevent, rfl : ys₁ = _, rfl, hstored, hvalues⟩
      have hdiff₁ : m.Differs (buffersOf (before ++ [s])) [] m₁ := by
        rw [buffersOf_append_singleton]
        exact hdiff.append hstored
      have hrest := @ih (before ++ [s]) (noted ++ [{ s with event := some e }]) m₁ (ys ++ [y]) hd'
        (by simp [hnoted, Shard.forget]) hdiff₁
      rw [List.length_append, List.length_singleton, ← hdrop] at hrest
      rw [← hlength, setEvent_append]
      rw [← hlength] at hrest
      refine hrest.imp (fun _ _ _ h => h) fun _ _ _ => .stored hs hinto hevent hstored ?_
      -- the elements of the shard are the results at its positions
      have hcontents : (s.contents m₁).length = s.length :=
        (hvalid.append_right.head.of_differs hdiff₁).length_contents
      apply List.ext_getElem?
      intro i
      rw [List.getElem?_take, List.getElem?_drop]
      split
      next hi =>
        rw [← hvalues i hi, hnew]
        rw [size, lengths, hd, List.map_append, total_append, List.map_cons, total]
        omega
      next hi => exact List.getElem?_eq_none (hcontents ▸ Nat.le_of_not_lt hi)
    · rintro e d'' z ⟨y, fault, rfl, hinto, hfailed, rfl, rfl⟩
      exact .failed hs hinto hfailed

/-- Copies between shards that are laid out alike can only be interrupted. -/
theorem copyShards_gently (suits : DeviceId → KernelSource → Int → Prop) {type : ElementType}
    {access access' : Access} {pairs : List (Shard × Shard)} :
    ∀ (noted : List Shard) {m : Memory} (ys : List Exchange),
    SideBySide m type access access' pairs →
    (copyShards noted.length pairs).Ensures (gentleContract A suits) (fun _ _ _ => True)
      (InterruptedBehind d noted (contentsOf m (pairs.map (·.1))) (pairs.map (·.2)) m ys)
      { d with shards := noted ++ pairs.map (·.2) } (m, ys) := by
  induction pairs with
  | nil => exact fun _ _ _ _ => trivial
  | cons pair rest ih =>
    obtain ⟨source, mine⟩ := pair
    intro noted m ys hpairs
    obtain ⟨hdevice, hlength⟩ : source.device = mine.device ∧ source.length = mine.length :=
      hpairs.alike _ List.mem_cons_self
    have hsource : ShardsValid m type access (source :: rest.map (·.1)) := hpairs.sources
    have hmine : ShardsValid m type access' (mine :: rest.map (·.2)) := hpairs.targets
    have hapart : ∀ b ∈ buffersOf (source :: rest.map (·.1)),
        b ∉ buffersOf (mine :: rest.map (·.2)) :=
      hpairs.apart
    simp only [List.map_cons]
    have hrest := fun (shard : Shard) {m₁} ys₁ hs hs' => ih (noted ++ [shard]) ys₁ (m := m₁)
      ⟨hs, hs', hpairs.tail.alike, hpairs.tail.apart⟩
    simp only [List.length_append, List.length_singleton] at hrest
    simp only [copyShards, Task.ensures_ite]
    refine ⟨fun hzero => ?_, fun hne => ?_⟩
    · -- shards without elements have no buffers
      have hnone : source.buffer = none := hsource.head.absent.mpr (hlength.trans hzero)
      have hrest := hrest mine ys hsource.tail hmine.tail
      rw [List.append_assoc, List.singleton_append] at hrest
      rw [contentsOf_cons, Shard.contents_of_none hnone, List.nil_append]
      exact hrest.imp (fun _ _ _ h => h) fun _ _ _ => .passed hzero
    obtain ⟨b, data, hb, hsize, hcontents, hspan⟩ :=
      hsource.head.span 0 mine.length hdevice (by omega)
      (Int.le_refl 0) (by omega)
    obtain ⟨b', data', hb', hsize', -, hspan'⟩ := hmine.head.span 0 mine.length rfl hne
      (Int.le_refl 0) (by omega)
    have hinto : Call.StoresInto mine
        (.copy mine.device source.buffer mine.buffer mine.length 0 0) := ⟨rfl, rfl⟩
    simp only [Task.ensures_bind, Task.ensures_modify]
    refine ensures_copy_gently hspan hspan' (ne_of_apart hapart hb hb')
        (fun e values hvsize hvalues => ?_) fun e =>
      .failed hne hinto rfl
    have hdiff := Memory.Differs.setBuffer hspan'.present hvsize
    have hrest := hrest { mine with event := some e }
      (ys ++ [⟨.copy mine.device source.buffer mine.buffer mine.length 0 0, .ok e⟩])
      (hsource.tail.of_differs hdiff) (hmine.tail.of_differs hdiff)
    rw [hsource.tail_contents_of_apart hapart hb' hdiff] at hrest
    rw [setEvent_append]
    have hfirst : (source.contents m).length = mine.length :=
      hsource.head.length_contents.trans hlength
    rw [contentsOf_cons]
    refine hrest.imp (fun _ _ _ h => h) fun _ _ _ h =>
      .stored hne hinto rfl (by rw [hb']; exact hdiff) ?_ (by rwa [List.drop_left' hfirst])
    -- the elements of the shard are those of the other one
    rw [Shard.contents_of_buffer hb' (m.setBuffer_buffer_self b' _), hvalues,
      List.take_left' hfirst, hcontents]
    exact overlay_whole (by simpa using hsize.trans hlength) (by simpa using hsize')

end Vector

namespace Store

open DistributedVector.Vector

variable {V : Type} {A : Arithmetic V} {F : Fleet} {m : Memory} {S S' : Store}
  {p : Plain} {v : VectorId} {result : Option Plain} {plan : Plan}

/-- What carrying out a plan that does not succeed leaves: nothing has happened, or it has been
interrupted. -/
def Halted (S : Store) (m : Memory) (p : Plain) (v : VectorId) (result : Option Plain)
    (ys : List Exchange) (e : Fault) (S' : Store) (z : Memory × List Exchange) : Prop :=
  S'.vectors = S.vectors ∧ z = (m, ys) ∨
    ∃ d fault new noted zs, S.vectors[v]? = some d ∧ e = .device fault ∧
      Interrupted fault new d.shards m noted z.1 zs ∧
      S'.vectors = S.vectors.setIfInBounds v { d with shards := noted } ∧ z.2 = ys ++ zs ∧
      result = some (p.put v d.type new)

/-- A plan that can be carried out fails with nothing done, or is interrupted. -/
theorem Feasible.carryOut_gently (ys : List Exchange) (hS : S.Valid F m)
    (hthreads : ∀ d source w, F.suits d source w → 1 ≤ w)
    (h : Feasible A F S m p v result plan) (hsettled : Settled F S m S' m) :
    (plan.carryOut v).Ensures (gentleContract A F.suits) (fun _ _ _ => True)
      (Halted S m p v result ys) S' (m, ys) := by
  -- planning may have compiled kernels in a session, but the vectors are those that were planned
  -- for
  have hvectors := hsettled.vectors
  cases h with
  | nothing => trivial
  | copy hv hw hne hlayout htypes hmakes =>
    rename_i w d a
    have hv' : S'.vectors[v]? = some d := hvectors ▸ hv
    rw [Plan.carryOut, onVector_ensures_of_some hv']
    obtain ⟨hfst, hsnd, -⟩ := zip_shards (f := fun s => (s.device, s.length)) hlayout
    have hcopy :=
      copyShards_gently (A := A) (d := d) F.suits [] ys (hS.sideBySide hv hw hne hlayout htypes)
    rw [hfst, hsnd] at hcopy
    refine hcopy.imp (fun _ _ _ _ => trivial) ?_
    rintro e d' z ⟨fault, noted, zs, rfl, hinterrupted, rfl, hzs⟩
    exact .inr ⟨d, fault, _, noted, zs, hv, rfl, hinterrupted, by rw [hvectors]; rfl, hzs, hmakes⟩
  | launches hv hhardware hready hmakes =>
    rename_i d session kernels f
    have hv' : S'.vectors[v]? = some d := hvectors ▸ hv
    rw [Plan.carryOut, onVector_ensures_of_some hv']
    rw [dispatch, Task.ensures_bind, Task.ensures_get]
    -- scalars that do not fit are refused before the first launch
    by_cases hfit : Fitting f
    · obtain ⟨new, hresults, hnew⟩ := hready.exists_results (A := A) hfit
      refine (launchFrom_gently hready hthreads hhardware hfit hnew [] []
        (List.nil_append d.shards).symm rfl (.refl [] [] m)).imp (fun _ _ _ _ => trivial) ?_
      rintro e d' z ⟨fault, noted, zs, rfl, hinterrupted, rfl, hzs⟩
      exact .inr ⟨d, fault, new, noted, zs, hv, rfl, hinterrupted, by rw [hvectors]; rfl, hzs,
        hmakes new hresults⟩
    · refine (launchFrom_unfit hfit [] (List.nil_append d.shards).symm).imp
        (fun _ _ _ _ => trivial) ?_
      rintro e d' z ⟨rfl, rfl⟩
      exact .inl ⟨by rw [put_self hv', hvectors], rfl⟩

/-- What is left of an assignment of `new` elements to a vector that a command on the shard `s` has
interrupted: the shards before have the first of the new elements and the events of the commands
`done`, and nothing else has changed. -/
structure CutShort (S : Store) (m : Memory) (v : VectorId) (new : List Scalar) (d : Descriptor)
    (before : List Shard) (s : Shard) (after : List Shard) (done : List Exchange) (S' : Store)
    (m' : Memory) : Prop where
  target : S.vectors[v]? = some d
  shards : d.shards = before ++ s :: after
  filled : s.length ≠ 0
  events : ∃ noted, Stored before done noted ∧
    S'.vectors = S.vectors.setIfInBounds v { d with shards := noted ++ s :: after }
  stored : contentsOf m' before = new.take (total (before.map (·.length)))
  behind : contentsOf m' (s :: after) = contentsOf m (s :: after)
  others : ∀ (w : VectorId) (a : Descriptor), w ≠ v → S.vectors[w]? = some a →
    a.contents m' = a.contents m
  memory : m.Differs (buffersOf before) [] m'

/-- An interruption of the commands on a vector cuts an assignment short. -/
theorem Valid.cutShort (hS : S.Valid F m) {d : Descriptor} (hv : S.vectors[v]? = some d)
    {fault : DeviceFault} {new : List Scalar} {noted : List Shard} {m' : Memory}
    {zs : List Exchange} (h : Interrupted fault new d.shards m noted m' zs)
    (hvectors : S'.vectors = S.vectors.setIfInBounds v { d with shards := noted }) :
    ∃ before s after done y, zs = done ++ [y] ∧ y.1.StoresInto s ∧ y.fault? = some fault ∧
      (∀ z ∈ done, z.fault? = none) ∧ S.CutShort m v new d before s after done S' m' := by
  have hvalid := (hS.vectors v d hv).1
  obtain ⟨before, s, after, stored, done, y, hshards, rfl, hfilled, rfl, hstored, hinto, hfailed,
    hdiff, hvalues⟩ := h.split hvalid
  refine ⟨before, s, after, done, y, rfl, hinto, hfailed, hstored.fault?_eq_none, hv, hshards,
    hfilled, ⟨stored, hstored, hvectors⟩, hvalues, ?_, fun w a hw ha => ?_, hdiff⟩
  · -- the shards behind have buffers of their own, and so have the other vectors
    have hparts : ShardsValid m d.type d.access (before ++ s :: after) := hshards ▸ hvalid
    apply hparts.append_right.contents_of_differs hdiff
    intro b hb hmem
    have hdistinct := hparts.distinct
    rw [buffersOf_append] at hdistinct
    exact (List.nodup_append.mp hdistinct).2.2 b hmem b hb rfl
  · apply (hS.vectors w a ha).1.contents_of_differs hdiff
    intro b hb hmem
    refine hS.apart w v a d ha hv hw b hb ?_
    rw [Descriptor.buffers, hshards, buffersOf_append]
    exact List.mem_append_left _ hmem

end Store

/-- Devices that may be used in any list, for workgroups that have threads. -/
def Fleet.threaded (hardware : Hardware) : Fleet where
  hardware
  inUse _ := True
  suits _ _ workgroup := 1 ≤ workgroup
  chosen _ _ _ _ _ _ hconfig _ _ _ _ _ := KernelCache.one_le_workgroupFor hconfig

theorem Call.Compiles.not_stores {c : Call} (h : c.Compiles) : ¬ c.Stores := by
  cases c with
  | build | report => exact id
  | _ => cases h

section Runs

open Store

variable {σ V : Type} {A : Arithmetic V} {h : Handler σ} {view : σ → Memory} {hardware : Hardware}
  {S S' : Store} {x x' : σ} {v : VectorId} {source : Operand VectorId} {e : Fault}

/-- An assignment without products fails with nothing done, or is interrupted by a launch or a copy,
which is then the last thing asked for. -/
theorem Store.Valid.assign_halted (meets : h.Meets view (deviceContract A fun _ _ w => 1 ≤ w))
    (gentle : h.Gentle view) (hS : S.Valid (.threaded hardware) (view x)) (hfree : source.Free)
    (hrun : ((assign v source).runFrom S).run h x = ((.error e, S'), x')) :
    ∃ compiled zs, ((assign v source).runFrom S).exchanges h x = compiled ++ zs ∧
      (∀ z ∈ compiled, z.1.Compiles) ∧
      Halted S (view x) (S.plain (view x)) v ((S.plain (view x)).assign A.byKernel v source) [] e S'
        (view x', zs) := by
  have hplanned := planAssignment_ensures (A := A) hS (.self (view x) S) (v := v) hfree
  have hcompiles : ∀ z ∈ ((planAssignment v source).runFrom S).exchanges h x, z.1.Compiles := by
    intro z hz
    have hcall : z.1 ∈ ((planAssignment v source).runFrom S).calls h x :=
      Program.map_exchanges ▸ List.mem_map_of_mem hz
    obtain ⟨-, hc⟩ := (planAssignment_planned v source).of_mem_calls (h.meets_only _) hcall
    exact hc
  rw [assign_eq_plan hfree] at hrun ⊢
  rcases hplan : ((planAssignment v source).runFrom S).run h x with ⟨⟨e' | plan, S₁⟩, x₁⟩
  · -- the plan has not been found
    obtain ⟨hrun', hexchanges⟩ := Task.run_bind_of_error (f := Plan.carryOut v) hplan
    cases hrun'.symm.trans hrun
    obtain ⟨hvectors, hmemory, -⟩ := hplanned.of_run_error meets hplan
    exact ⟨_, [], by rw [hexchanges, List.append_nil], hcompiles,
      .inl ⟨hvectors, by rw [hmemory]⟩⟩
  · obtain ⟨hsettled, hfeasible⟩ := hplanned.of_run_ok meets hplan
    rw [Task.run_bind_of_ok hplan] at hrun
    rw [Task.exchanges_bind_of_ok hplan]
    have hmemory := hsettled.memory
    have hfinish := hfeasible.carryOut_gently [] hS (fun _ _ _ => id) (hmemory ▸ hsettled)
    rw [← hmemory] at hfinish
    have hend := hfinish.of_exchanges meets gentle
    rw [hrun, List.nil_append, hmemory] at hend
    exact ⟨_, _, rfl, hcompiles, hend⟩

/-- An assignment without products is done up to some device, or not at all. If it fails and no
launch and no copy has failed, nothing but kernels has been asked for and nothing has changed. If a
launch or a copy fails, it is the last thing asked for, and the assignment is cut short there. The
elements that are there up to then are those of the assignment to plain arrays. -/
theorem Reachable.assign_all_or_prefix (meets : h.Meets view (deviceContract A fun _ _ w => 1 ≤ w))
    (gentle : h.Gentle view) (hreach : Reachable h view (.threaded hardware) S x)
    (hfree : source.Free) (hrun : ((assign v source).runFrom S).run h x = ((.error e, S'), x')) :
    ((∀ y ∈ ((assign v source).runFrom S).exchanges h x, y.1.Stores → y.fault? = none) →
      (∀ y ∈ ((assign v source).runFrom S).exchanges h x, y.1.Compiles) ∧ S'.vectors = S.vectors ∧
        view x' = view x) ∧
    ∀ y ∈ ((assign v source).runFrom S).exchanges h x, y.1.Stores → y.fault? ≠ none →
      ∃ fault d before s after compiled done new, y.fault? = some fault ∧ e = .device fault ∧
        y.1.StoresInto s ∧
        ((assign v source).runFrom S).exchanges h x = compiled ++ done ++ [y] ∧
        (∀ z ∈ compiled, z.1.Compiles) ∧
        S.CutShort (view x) v new d before s after done S' (view x') ∧
        (S.plain (view x)).assign A.byKernel v source = some ((S.plain (view x)).put v d.type new) ∧
        (source.Clear (S.plain (view x)) v →
          (S.plain (view x)).assign A.byTree v source =
            some ((S.plain (view x)).put v d.type new)) := by
  obtain ⟨compiled, zs, hexchanges, hcompiles, hhalted⟩ :=
    (hreach.valid meets).assign_halted meets gentle hfree hrun
  rw [hexchanges]
  rcases hhalted with ⟨hvectors, hsame⟩ | ⟨d, fault, new, noted, zs', hv, rfl, hinterrupted,
    hvectors, hzs, hresult⟩
  · obtain ⟨hmemory, rfl⟩ := Prod.mk.inj hsame
    rw [List.append_nil]
    exact ⟨fun _ => ⟨hcompiles, hvectors, hmemory⟩,
      fun y hy hstores => absurd hstores (hcompiles y hy).not_stores⟩
  obtain rfl : zs = zs' := hzs
  obtain ⟨before, s, after, done, y, rfl, hinto, hfailed, hdone, hcut⟩ :=
    (hreach.valid meets).cutShort hv hinterrupted hvectors
  rw [← List.append_assoc]
  refine ⟨fun hnone => ?_, fun y' hy' hstores hfault => ?_⟩
  · have hfirst := hnone y (List.mem_append_right _ (List.mem_singleton_self y)) hinto.stores
    cases hfirst.symm.trans hfailed
  · -- the command that has failed is the last one, since those before have not
    obtain rfl : y' = y := by
      rcases List.mem_append.mp hy' with hy' | hy'
      · rcases List.mem_append.mp hy' with hy' | hy'
        · exact absurd hstores (hcompiles y' hy').not_stores
        · exact absurd (hdone y' hy') hfault
      · exact List.mem_singleton.mp hy'
    exact ⟨fault, d, before, s, after, compiled, done, new, hfailed, rfl, hinto, rfl, hcompiles,
      hcut, hresult, fun hclear => Plain.assign_byTree hclear hresult⟩

end Runs

namespace Sample

/-- Two devices, the second of which fails to copy. -/
def failing : Machine.Executing :=
  ⟨.initial #[⟨[], none, true, 0⟩, ⟨[(.copy, ⟨0, .unknown, "", none⟩)], none, true, 0⟩],
    fun i d hd => by
      match i, hd with
      | 0, hd =>
        cases hd
        rfl
      | 1, hd =>
        cases hd
        rfl⟩

/-- Two vectors on these devices, one of which holds a seven on the second device. -/
def uncopied : Store × Machine.Executing :=
  after three (after (.set 0 (.int 1) (.int 7)) (after three (store, failing)))

theorem reachable_uncopied :
    Reachable Machine.Executing.handle Machine.Executing.memory (.threaded hardware) uncopied.1
      uncopied.2 := by
  have hstart : Reachable Machine.Executing.handle Machine.Executing.memory
    (.threaded hardware) store
      failing := .session {} (some .equally) (.start failing) rfl (by simp)
  exact reachable_after (reachable_after (reachable_after hstart (Plain.offers_count _ _) trivial)
    trivial trivial) (Plain.offers_count _ _) trivial

/-- The copy between them that fails. -/
def failedCopy : Exchange :=
  ⟨.copy 1 (some 2) (some 4) 2 0 0, .error (.operation ⟨"copy buffer", .unknown, "", none⟩)⟩

end Sample

/-- A vector is assigned another one, and the copy on the second device fails. -/
theorem Reachable.assign_all_or_prefix_sample : ∃ e S' x',
    Sample.run (Store.assign 1 (.vector 0)) Sample.uncopied = ((.error e, S'), x') ∧
    ∃ fault d before s after compiled done new,
      Sample.failedCopy.fault? = some fault ∧ e = .device fault ∧ Sample.failedCopy.1.StoresInto s ∧
      ((Store.assign 1 (.vector 0)).runFrom Sample.uncopied.1).exchanges Machine.Executing.handle
        Sample.uncopied.2 = compiled ++ done ++ [Sample.failedCopy] ∧
      (∀ z ∈ compiled, z.1.Compiles) ∧
      Sample.uncopied.1.CutShort Sample.uncopied.2.memory 1 new d before s after done S' x'.memory ∧
      (Sample.uncopied.1.plain Sample.uncopied.2.memory).assign Arithmetic.wide.byTree
        1 (.vector 0) =
        some ((Sample.uncopied.1.plain Sample.uncopied.2.memory).put 1 d.type new) := by
  have hrun : Sample.run (Store.assign 1 (.vector 0)) Sample.uncopied =
      ((.error (.device (.operation ⟨"copy buffer", .unknown, "", none⟩)),
        (Sample.after (.assign 1 (.vector 0)) Sample.uncopied).1),
        (Sample.after (.assign 1 (.vector 0)) Sample.uncopied).2) := rfl
  have hexchanges : ((Store.assign 1 (.vector 0)).runFrom Sample.uncopied.1).exchanges
      Machine.Executing.handle Sample.uncopied.2 =
        [⟨.copy 0 (some 1) (some 3) 1 0 0, .ok ⟨.copy, 2⟩⟩, Sample.failedCopy] := rfl
  have hlast := (Reachable.assign_all_or_prefix (Machine.Executing.meets _) Machine.Executing.gentle
    Sample.reachable_uncopied (Operand.free_vector 0) hrun).2 Sample.failedCopy
      (by rw [hexchanges]; exact List.mem_cons_of_mem _ (List.mem_singleton_self _)) trivial
      (Option.some_ne_none _)
  obtain ⟨fault, d, before, s, after, compiled, done, new, hfault, he, hinto, hexchanges, hcompiles,
    hcut, -, hresult⟩ := hlast
  exact ⟨_, _, _, hrun, fault, d, before, s, after, compiled, done, new, hfault, he, hinto,
    hexchanges, hcompiles, hcut, hresult (Operand.clear_vector _ 1 0)⟩

end DistributedVector
