import DistributedVector.Proofs.Exchange
import DistributedVector.Proofs.Plan
import DistributedVector.Proofs.Representation

/-!
# Launches are well formed

A kernel that comes from a cache may have been built for another formula, and the vectors of a
formula are looked up only when it is assigned. Still each launch fits: the kernel stores the type
of the target, each of its parameters gets the buffer of the vector that it stands for, of the size
of the shard and of the type of the parameter, or a number of its type. There is one launch for each
device with elements, in device order, and nothing is waited for. Launches that have been made are
not taken back if a later one fails, and none is made behind one that has failed.

## Main definitions

* `Binds`, `WellFormed`, `Launches` — what a launch gives to a kernel
* `Completes`, `Halts` — how launches end, and why there may be fewer of them than devices with
  elements
* `Issued` — what has been launched so far

## Main results

* `Vector.launch_recorded`, `Vector.launchFrom_recorded` — one launch, and those on the last shards
* `Arises.assign_launches` — the calls of an assignment
-/

namespace DistributedVector

section WellFormed

variable {ν : Type}

/-- What a parameter gets for a leaf in a launch on the shard of a number: the buffer of the vector
there, of the size of the shard and of the type of the parameter, or the number as one of that
type. -/
inductive Binds (look : ν → Option Descriptor) (m : Allocated) (k : Nat) (s : Shard) :
    Parameter → Terminal ν → Argument → Prop
  | vector {name : String} {type : ElementType} {w : ν} {a : Descriptor} {b : BufferId}
    (found : look w = some a) (own : a.buffer? k = some b)
    (allocated : m b = some ⟨s.device, s.length, type, a.access⟩) :
    Binds look m k s ⟨name, .vector, .element type⟩ (.vector w) (.buffer (some b))
  | scalar {name : String} {type : ElementType} {x y : Scalar} {t : DataType}
    (value : t.single x = .ok (.element type, y)) :
    Binds look m k s ⟨name, .scalar, .element type⟩ (.scalar x t) (.scalar (.element type) y)

/-- The buffer `b` and the arguments behind it are right for a kernel on the shard of a number. -/
structure WellFormed (look : ν → Option Descriptor) (m : Allocated) (d : Descriptor)
    (leaves : List (Terminal ν)) (k : Nat) (s : Shard) (source : KernelSource) (b : BufferId)
    (args : List Argument) : Prop where
  own : s.buffer = some b
  allocated : m b = some ⟨s.device, s.length, d.type, d.access⟩
  writable : d.access ≠ .readOnly
  result : source.result = .element d.type
  leafCount : leaves.length = source.parameters.length
  argCount : args.length = source.parameters.length
  binds : ∀ (i : Nat) p t arg, source.parameters[i]? = some p → leaves[i]? = some t →
    args[i]? = some arg → Binds look m k s p t arg

/-- A call launches the cached kernel of a shape on a shard of the target, with its number. -/
def Launches (look : ν → Option Descriptor) (m : Allocated) (session : Session)
    (shape : KernelShape) (d : Descriptor) (leaves : List (Terminal ν)) (p : Shard × Nat)
    (c : Call) : Prop :=
  ∃ kernel grid b args,
    session.cache.find? (session.hardware p.1.device).context shape = some kernel ∧
    WellFormed look m d leaves p.2 p.1 kernel.source b args ∧
    c = .launch p.1.device kernel.source grid kernel.workgroup
      (.scalar (.element .uint64) (.int p.1.length) :: .buffer (some b) :: args)

/-- Why launches end before there has been one for each device with elements: the last one is the
first that has failed, or there is none since a number does not fit its type. -/
inductive Halts (leaves : List (Terminal ν)) (issued : List Exchange) : Fault → Prop
  | failed {done : List Exchange} {last : Exchange} {fault : DeviceFault}
    (ends : issued = done ++ [last]) (passed : ∀ y ∈ done, y.fault? = none)
    (fails : last.fault? = some fault) :
    Halts leaves issued (.device fault)
  | unfit {x : Scalar} {t : DataType} {fault : NumberFault} (leaf : .scalar x t ∈ leaves)
    (unfit : scalarArgument x t = .error fault) (none : issued = []) :
    Halts leaves issued (.number fault)

variable {look : ν → Option Descriptor} {m : Allocated} {session : Session} {shape : KernelShape}
  {d : Descriptor} {leaves : List (Terminal ν)} {g : ν → Descriptor} {p : Shard × Nat} {c : Call}

/-- Where a launch has been made, every number fits its type. -/
theorem Launches.fits (h : Launches look m session shape d leaves p c) {x : Scalar} {t : DataType}
    (ht : .scalar x t ∈ leaves) : ∃ arg, scalarArgument x t = .ok arg := by
  obtain ⟨kernel, grid, b, args, -, hformed, -⟩ := h
  -- the number has a parameter and an argument at its place, and the argument is made from it
  obtain ⟨i, hi⟩ := List.getElem?_of_mem ht
  have hlt := (List.getElem?_eq_some_iff.mp hi).1
  obtain ⟨p, hp⟩ : ∃ p, kernel.source.parameters[i]? = some p :=
    ⟨_, List.getElem?_eq_getElem (hformed.leafCount ▸ hlt)⟩
  obtain ⟨arg, harg⟩ : ∃ arg, args[i]? = some arg :=
    ⟨_, List.getElem?_eq_getElem (hformed.argCount ▸ hformed.leafCount ▸ hlt)⟩
  cases hformed.binds i p _ arg hp hi harg with
  | scalar hvalue => exact ⟨_, by rw [scalarArgument, hvalue]; rfl⟩

/-- Launches halt for the same reason behind one more that has not failed. -/
theorem Halts.cons {y : Exchange} {issued : List Exchange} {e : Fault}
    (hy : Launches look m session shape d leaves p y.1) (hpassed : y.fault? = none)
    (h : Halts leaves issued e) : Halts leaves (y :: issued) e := by
  cases h with
  | failed hends hdone hfails =>
    subst hends
    exact .failed (List.cons_append ..).symm (List.forall_mem_cons.mpr ⟨hpassed, hdone⟩) hfails
  | unfit hleaf hunfit hissued =>
    -- a number that does not fit would have stopped the first launch
    obtain ⟨arg, harg⟩ := hy.fits hleaf
    cases hunfit.symm.trans harg

/-! ## Formulas over the vectors of a store -/

/-- What a leaf that has been looked up gives is what the leaf gives. -/
theorem Binds.of_map {k : Nat} {s : Shard} {q : Parameter} {t : Terminal ν} {arg : Argument}
    (hlook : ∀ w, t = .vector w → look w = some (g w))
    (h : Binds some m k s q (t.map g) arg) : Binds look m k s q t arg := by
  cases t with
  | vector w =>
    cases h with
    | vector found own allocated => exact .vector ((hlook w rfl).trans found) own allocated
  | scalar x t =>
    cases h with
    | scalar value => exact .scalar value

theorem Launches.of_map (hlook : ∀ w, .vector w ∈ leaves → look w = some (g w))
    (h : Launches some m session shape d (leaves.map (Terminal.map g)) p c) :
    Launches look m session shape d leaves p c := by
  obtain ⟨kernel, grid, b, args, hfind, hformed, hc⟩ := h
  refine ⟨kernel, grid, b, args, hfind, { hformed with
    leafCount := by rw [← hformed.leafCount, List.length_map]
    binds := fun i q t arg hq ht harg => ?_ }, hc⟩
  apply Binds.of_map fun w hw => hlook w (hw ▸ List.mem_of_getElem? ht)
  exact hformed.binds i q _ arg hq (by rw [List.getElem?_map, ht, Option.map_some]) harg

theorem Halts.of_map {issued : List Exchange} {e : Fault}
    (h : Halts (leaves.map (Terminal.map g)) issued e) :
    Halts leaves issued e := by
  cases h with
  | failed hends hdone hfails => exact .failed hends hdone hfails
  | unfit hleaf hunfit hissued =>
    obtain ⟨t, ht, heq⟩ := List.mem_map.mp hleaf
    cases t with
    | vector w => cases heq
    | scalar x t =>
      cases heq
      exact .unfit ht hunfit hissued

end WellFormed

/-- The shards that have elements, with their numbers. -/
def Descriptor.filled (d : Descriptor) : List (Shard × Nat) :=
  d.shards.zipIdx.filter fun p => p.1.length ≠ 0

/-- What a record has gained is launches on the first of the shards with elements, in order. -/
def Issued (good : Shard × Nat → Call → Prop) (filled : List (Shard × Nat))
    (ends : List (Shard × Nat) → List Exchange → Prop) (ys ys' : List Exchange) : Prop :=
  ∃ reached issued, ys' = ys ++ issued ∧ reached <+: filled ∧
    List.Forall₂ (fun p (y : Exchange) => good p y.1) reached issued ∧ ends reached issued

/-- Launches end as they should: there has been one on each shard with elements, and none has
failed. -/
def Completes (filled reached : List (Shard × Nat)) (issued : List Exchange) : Prop :=
  reached = filled ∧ ∀ y ∈ issued, y.fault? = none

theorem Completes.cons {filled reached : List (Shard × Nat)} {issued : List Exchange}
    {p : Shard × Nat} {y : Exchange} (hpassed : y.fault? = none)
    (h : Completes filled reached issued) :
    Completes (p :: filled) (p :: reached) (y :: issued) :=
  ⟨congrArg _ h.1, List.forall_mem_cons.mpr ⟨hpassed, h.2⟩⟩

theorem Issued.imp {good good' : Shard × Nat → Call → Prop} {filled : List (Shard × Nat)}
    {ends ends' : List (Shard × Nat) → List Exchange → Prop} {ys ys' : List Exchange}
    (h : Issued good filled ends ys ys') (hgood : ∀ p c, good p c → good' p c)
    (hends : ∀ reached issued, ends reached issued → ends' reached issued) :
    Issued good' filled ends' ys ys' := by
  obtain ⟨reached, issued, hys, hreached, hissued, hend⟩ := h
  exact ⟨reached, issued, hys, hreached, hissued.imp fun p _ => hgood p _, hends _ _ hend⟩

/-- One launch and nothing behind it. -/
theorem Issued.single {good : Shard × Nat → Call → Prop}
    {ends : List (Shard × Nat) → List Exchange → Prop} {ys : List Exchange} {p : Shard × Nat}
    {y : Exchange} (hy : good p y.1) (hend : ends [p] [y]) : Issued good [p] ends ys (ys ++ [y]) :=
  ⟨[p], [y], rfl, List.prefix_rfl, .cons hy .nil, hend⟩

/-- One launch, and what has been launched behind it. -/
theorem Issued.cons {good : Shard × Nat → Call → Prop} {filled : List (Shard × Nat)}
    {ends ends' : List (Shard × Nat) → List Exchange → Prop} {ys ys' : List Exchange}
    {p : Shard × Nat} {y : Exchange} (hy : good p y.1) (h : Issued good filled ends (ys ++ [y]) ys')
    (hends : ∀ reached issued, ends reached issued → ends' (p :: reached) (y :: issued)) :
    Issued good (p :: filled) ends' ys ys' := by
  obtain ⟨reached, issued, rfl, hreached, hissued, hend⟩ := h
  exact ⟨p :: reached, y :: issued, List.append_assoc .., (List.prefix_cons_inj p).mpr hreached,
    .cons hy hissued, hends _ _ hend⟩

namespace Vector

open Descriptor

variable {m : Allocated} {session : Session} {shape : KernelShape}
  {kernels : List (Key × CompiledKernel)} {d d' : Descriptor} {f : Formula Descriptor}
  {before : List Shard} {s : Shard} {after : List Shard}

/-- Everything is there for the launches of a formula: a target that may be written, vectors that
are laid out like it, and a cached kernel for each device. -/
structure Equipped (m : Allocated) (session : Session) (shape : KernelShape)
    (kernels : List (Key × CompiledKernel)) (d : Descriptor) (f : Formula Descriptor) : Prop where
  owned : d.Owned m
  writable : d.access ≠ .readOnly
  leaves : ∀ a, .vector a ∈ f.terminals → a.Owned m ∧ a.layout = d.layout
  compiled : ∀ s ∈ d.shards, ∃ kernel,
    kernels.lookup (session.hardware s.device).context = some kernel ∧
    session.cache.find? (session.hardware s.device).context shape = some kernel ∧
    1 ≤ kernel.workgroup ∧ kernel.source.Serves f d.type

namespace Equipped

variable (h : Equipped m session shape kernels d f) (hd : d.shards = before ++ s :: after)
include h hd

/-- The buffer of a leaf at the place of a shard. -/
theorem leaf_buffer {a : Descriptor} (ha : .vector a ∈ f.terminals) (hs : s.length ≠ 0) :
    ∃ b, leafArgument before.length (.vector a) = .ok (.buffer (some b)) ∧
      a.buffer? before.length = some b ∧ m b = some ⟨s.device, s.length, a.type, a.access⟩ := by
  obtain ⟨howned, hlayout⟩ := h.leaves a ha
  obtain ⟨before', s', after', hshards, hlength, -, hdevice, hslength⟩ :=
    exists_shard_of_layout hd hlayout
  have hget : a.shards[before.length]? = some s' := by
    rw [hshards, ← hlength, List.getElem?_append_right (Nat.le_refl _), Nat.sub_self,
      List.getElem?_cons_zero]
  obtain ⟨b, hb, hallocated⟩ :=
    (howned.each s' (List.mem_of_getElem? hget)).exists_buffer (hslength ▸ hs)
  refine ⟨b, ?_, ?_, hdevice ▸ hslength ▸ hallocated⟩
  · simp only [leafArgument, atSigned?_natCast, hget, hb]
  · rw [buffer?, hget, Option.bind_some, hb]

/-- What a leaf gives to a parameter that takes it. -/
theorem leaf_binds {q : Parameter} {t : Terminal Descriptor} {arg : Argument} (ht : t ∈ f.terminals)
    (hq : q.Takes t) (hs : s.length ≠ 0) (harg : leafArgument before.length t = .ok arg) :
    Binds some m before.length s q t arg := by
  obtain ⟨name, kind, type⟩ := q
  cases t with
  | vector a =>
    obtain ⟨rfl, rfl⟩ := hq
    obtain ⟨b, hleaf, hown, hallocated⟩ := h.leaf_buffer hd ht hs
    obtain rfl := Except.ok.inj (hleaf.symm.trans harg)
    exact .vector rfl hown hallocated
  | scalar x t =>
    obtain ⟨rfl, type, rfl, htoken⟩ := hq
    rw [leafArgument, mapError_eq_ok_iff, scalarArgument_of_token htoken, map_eq_ok_iff] at harg
    obtain ⟨y, hy, rfl⟩ := harg
    exact .scalar (by rw [DataType.single_of_token htoken, hy]; rfl)

/-- A leaf gives nothing only if it is a number that does not fit its type. -/
theorem leaf_error {t : Terminal Descriptor} {e : Fault} (ht : t ∈ f.terminals) (hs : s.length ≠ 0)
    (he : leafArgument before.length t = .error e) :
    ∃ x type fault, t = .scalar x type ∧ scalarArgument x type = .error fault ∧
    e = .number fault := by
  cases t with
  | vector a =>
    obtain ⟨b, hleaf, -⟩ := h.leaf_buffer hd ht hs
    cases hleaf.symm.trans he
  | scalar x type =>
    cases hx : scalarArgument x type with
    | ok arg => simp [leafArgument, hx] at he
    | error fault =>
      rw [leafArgument, hx] at he
      cases he
      exact ⟨x, type, fault, rfl, hx, rfl⟩

/-- The arguments that are bound on a shard are right for the kernel of its context. -/
theorem wellFormed {kernel : CompiledKernel} {args : List Argument}
    (hserves : kernel.source.Serves f d.type) (hs : s.length ≠ 0)
    (hargs : f.terminals.mapM (leafArgument before.length) = .ok args) :
    ∃ b, WellFormed some m d f.terminals before.length s kernel.source b args := by
  have hmem : s ∈ d.shards := hd ▸ List.mem_append_right _ List.mem_cons_self
  obtain ⟨b, hb, hallocated⟩ := (h.owned.each s hmem).exists_buffer hs
  have hleaves := mapM_eq_ok_iff.mp hargs
  have hlength := hserves.parameters.length_eq
  refine ⟨b, hb, hallocated, h.writable, hserves.result, hlength.symm,
    hleaves.length_eq.symm.trans hlength.symm, fun i q t arg hq ht harg => ?_⟩
  obtain ⟨t', ht', htakes⟩ := getElem?_of_forall₂ hserves.parameters hq
  obtain ⟨arg', harg', hleaf⟩ := getElem?_of_forall₂ hleaves ht
  obtain rfl := Option.some_inj.mp (ht.symm.trans ht')
  obtain rfl := Option.some_inj.mp (harg.symm.trans harg')
  exact h.leaf_binds hd (List.mem_of_getElem? ht) htakes hs hleaf

end Equipped

/-- A launch on a shard is recorded as one, unless it halts before. -/
theorem launch_recorded (h : Equipped m session shape kernels d f)
    (hd : d.shards = before ++ s :: after) (hs : s.length ≠ 0) (hsame : d'.forget = d.forget)
    (ys : List Exchange) :
    (launch session kernels f.terminals before.length s).Ensures .recording
      (fun _ d'' ys' => d''.forget = d.forget ∧ ∃ y, ys' = ys ++ [y] ∧ y.fault? = none ∧
        Launches some m session shape d f.terminals (s, before.length) y.1)
      (fun e _ ys' => Issued (Launches some m session shape d f.terminals) [(s, before.length)]
        (fun _ issued => Halts f.terminals issued e) ys ys') d' ys := by
  obtain ⟨kernel, hlookup, hfind, hworkgroup, hserves⟩ :=
    h.compiled s (by rw [hd]; exact List.mem_append_right _ List.mem_cons_self)
  -- nothing has been launched yet
  have hnone : ∀ {e : Fault}, Halts f.terminals [] e →
      Issued (Launches some m session shape d f.terminals) [(s, before.length)]
        (fun _ issued => Halts f.terminals issued e) ys ys := fun he =>
    ⟨[], [], (List.append_nil ys).symm, List.nil_prefix, .nil, he⟩
  simp only [launch, hlookup, Task.ensures_bind, Task.ensures_get, Task.ensures_ofExcept,
    Task.ensures_modify, ensures_issue]
  refine ⟨fun threads _ => ⟨fun args hargs => ⟨trivial, ?_⟩, fun e he => hnone ?_⟩,
    fun e he => absurd he (globalSize_ne_error hworkgroup)⟩
  -- the call is made, and the device carries it out or fails
  · rintro r ys' rfl
    rw [bindArguments_eq hd hsame] at hargs
    obtain ⟨rest, hrest, rfl⟩ := map_eq_ok_iff.mp hargs
    obtain ⟨b, hformed⟩ := h.wellFormed hd hserves hs hrest
    have hlaunch : Launches some m session shape d f.terminals (s, before.length)
        (.launch s.device kernel.source (threads.fdiv kernel.workgroup) kernel.workgroup
          (.scalar (.element .uint64) (.int s.length) :: .buffer s.buffer :: rest)) :=
      ⟨kernel, _, b, rest, hfind, hformed, by rw [hformed.own]⟩
    constructor
    · rintro e rfl
      exact ⟨(forget_setEvent _ _).trans hsame, _, rfl, rfl, hlaunch⟩
    · rintro fault rfl
      exact .single hlaunch (.failed (List.nil_append _).symm (List.forall_mem_nil _) rfl)
  -- an argument is missing
  · rw [bindArguments_eq hd hsame] at he
    obtain ⟨t, ht, he⟩ := exists_of_mapM_eq_error (map_eq_error_iff.mp he)
    obtain ⟨x, type, fault, rfl, hunfit, rfl⟩ := h.leaf_error hd ht hs he
    exact .unfit ht hunfit rfl

/-- The launches on the last shards are recorded in order. -/
theorem launchFrom_recorded (h : Equipped m session shape kernels d f) {rest : List Shard} :
    ∀ {before : List Shard} {d' : Descriptor} {ys : List Exchange}, d.shards = before ++ rest →
    d'.forget = d.forget →
    (launchFrom session kernels f.terminals before.length rest).Ensures .recording
      (fun _ _ ys' => Issued (Launches some m session shape d f.terminals)
        ((rest.zipIdx before.length).filter fun p => p.1.length ≠ 0)
        (Completes ((rest.zipIdx before.length).filter fun p => p.1.length ≠ 0)) ys ys')
      (fun e _ ys' => Issued (Launches some m session shape d f.terminals)
        ((rest.zipIdx before.length).filter fun p => p.1.length ≠ 0)
        (fun _ issued => Halts f.terminals issued e) ys ys') d' ys := by
  induction rest with
  | nil =>
    intro before d' ys hd hsame
    exact ⟨[], [], (List.append_nil ys).symm, List.nil_prefix, .nil, rfl, List.forall_mem_nil _⟩
  | cons s rest ih =>
    intro before d' ys hd hsame
    have hrest := fun {d'} {ys} => @ih (before ++ [s]) d' ys (by simp [hd])
    simp only [List.length_append, List.length_singleton] at hrest
    simp only [launchFrom, Task.ensures_ite, Task.ensures_bind, List.zipIdx_cons]
    -- shards without elements are passed over in the list and by the task alike
    refine ⟨fun hzero => ?_, fun hs => ?_⟩
    · rw [List.filter_cons_of_neg (by simp [hzero])]
      exact hrest hsame
    · rw [List.filter_cons_of_pos (by simp [hs])]
      refine (launch_recorded h hd hs hsame ys).imp ?_ ?_
      · rintro _ d'' ys' ⟨hsame', y, rfl, hpassed, hy⟩
        refine (hrest hsame').imp ?_ ?_
        · exact fun _ _ _ h => h.cons hy fun _ _ hfinishes => hfinishes.cons hpassed
        · exact fun _ _ _ h => h.cons hy fun _ _ hhalts => hhalts.cons hy hpassed
      · rintro e d'' ys' ⟨reached, issued, hys, hreached, hissued, hhalts⟩
        exact ⟨reached, issued, hys, hreached.trans (by simp), hissued, hhalts⟩

/-- The launches of a formula are recorded in device order. -/
theorem dispatch_recorded (h : Equipped m session shape kernels d f) (ys : List Exchange) :
    (dispatch session kernels f).Ensures .recording
      (fun _ _ ys' => Issued (Launches some m session shape d f.terminals) d.filled
        (Completes d.filled) ys ys')
      (fun e _ ys' => Issued (Launches some m session shape d f.terminals) d.filled
        (fun _ issued => Halts f.terminals issued e) ys ys') d ys := by
  rw [dispatch, Task.ensures_bind, Task.ensures_get]
  exact launchFrom_recorded h (List.nil_append d.shards).symm rfl

end Vector

section Runs

open Store

variable {σ : Type} {h : Handler σ} {view : σ → Allocated} {S S₁ : Store} {x x₁ : σ} {v : VectorId}
  {d : Descriptor} {f : Formula VectorId} {source : Operand VectorId} {session : Session}
  {kernels : List (Key × CompiledKernel)} {g : Formula Descriptor} {m : Allocated}

/-- When everything has been found, everything is there for the launches. -/
theorem Store.Ready.equipped (hS : S.Owned m) (hv : S.vectors[v]? = some d)
    (h : S.Ready d f session kernels S₁) :
    Vector.Equipped m session (S.shapeFor d f) kernels d (S.resolve d f) := by
  refine ⟨hS.vectors v d hv, h.writable, fun a ha => ?_, fun s hs => ?_⟩
  · obtain ⟨w, hw, hlayout⟩ := exists_of_mem_resolved h.leaves ha
    exact ⟨hS.vectors w a hw, hlayout⟩
  · obtain ⟨kernel, hlookup, hfind⟩ := h.compiled s.device (List.mem_map_of_mem hs)
    -- the cache of the session that launches is right, since it has grown from one that was
    obtain ⟨s₀, hs₀, hlater⟩ := h.later.sessions _ _ h.current
    obtain ⟨⟨f', result, hsource, hkey⟩, hworkgroup⟩ :=
      (hlater.regular (hS.sessions _ _ hs₀)).cache.find? hfind
    exact ⟨kernel, hlookup, hfind, hworkgroup, KernelSource.serves_of_key hsource hkey⟩

/-- The launches that have been planned are recorded in device order, with what they give to the
kernels for the vectors of the store. -/
theorem Store.Ready.carryOut_recorded (hS : S.Owned m) (hv : S.vectors[v]? = some d)
    (h : S.Ready d f session kernels S₁) :
    (Plan.carryOut v (.launches session kernels (S.resolve d f))).Ensures .recording
      (fun _ _ ys => Issued (Launches (S.vectors[·]?) m session (S.shapeFor d f) d f.terminals)
        d.filled (Completes d.filled) [] ys)
      (fun e _ ys => Issued (Launches (S.vectors[·]?) m session (S.shapeFor d f) d f.terminals)
        d.filled (fun _ issued => Halts f.terminals issued e) [] ys) S₁ [] := by
  have hresolve : (S.resolve d f).terminals = f.terminals.map (Terminal.map (S.vectors.getD · d)) :=
    Formula.terminals_map _ f
  have hlook : ∀ w, .vector w ∈ f.terminals → S.vectors[w]? = some (S.vectors.getD w d) := by
    intro w hw
    obtain ⟨a, ha, -⟩ := h.leaves w hw
    rw [Array.getD_eq_getD_getElem?, ha, Option.getD_some]
  have hrecorded := Vector.dispatch_recorded (h.equipped hS hv) []
  rw [hresolve] at hrecorded
  rw [Plan.carryOut, onVector_ensures, h.vectors]
  refine ⟨fun d' hv' => ?_, fun hnone => by cases hv.symm.trans hnone⟩
  obtain rfl : d = d' := Option.some_inj.mp (hv.symm.trans hv')
  refine hrecorded.imp ?_ ?_
  · exact fun _ _ _ hissued => hissued.imp (fun _ _ hc => hc.of_map hlook)
      fun _ _ hfinishes => hfinishes
  · exact fun _ _ _ hissued => hissued.imp (fun _ _ hc => hc.of_map hlook)
      fun _ _ hhalts => hhalts.of_map

/-- What an assignment of an expression without products asks for when launches are planned: first
what compiles kernels, then the launches on the devices with elements, in order. If the assignment
returns, all of them have been made and none has failed. Otherwise they end with the first that
fails, or there is none since a number does not fit its type. -/
theorem Arises.assign_launches (meets : h.Meets view allocations) (hS : Arises h view S x)
    (hfree : source.Free)
    (hplan : ((planAssignment v source).runFrom S).run h x =
      ((.ok (.launches session kernels g), S₁), x₁)) :
    ∃ d e f, S.vectors[v]? = some d ∧ source.toExpr = .ok e ∧ e.formula = .ok f ∧
      S₁.sessions[d.session]? = some session ∧
      ∃ before reached issued, ((assign v source).runFrom S).exchanges h x = before ++ issued ∧
        (∀ y ∈ before, y.1.Compiles) ∧ reached <+: d.filled ∧
        List.Forall₂ (fun p (y : Exchange) => Launches (S.vectors[·]?) (view x) session
          (S.shapeFor d f) d f.terminals p y.1) reached issued ∧
        match (((assign v source).runFrom S).run h x).1.1 with
        | .ok _ => reached = d.filled ∧ ∀ y ∈ issued, y.fault? = none
        | .error e => Halts f.terminals issued e := by
  obtain ⟨e, he, hplanned⟩ :=
    (planAssignment_planned (S := S) v source).of_run_ok (h.meets_only _) hplan
  obtain ⟨d, f, hv, hf, rfl, hready⟩ : ∃ d f, S.vectors[v]? = some d ∧ e.formula = .ok f ∧
      S.resolve d f = g ∧ S.Ready d f session kernels S₁ := by
    cases hplanned with
    | launches hv hf hready => exact ⟨_, _, hv, hf, rfl, hready⟩
  -- the launches are recorded from an empty record on, behind the calls of the plan
  have hrecorded := Program.Ensures.of_recording (h := h) (s := x₁)
    (hready.carryOut_recorded (hS.owned meets) hv)
  have hbefore : ∀ y ∈ ((planAssignment v source).runFrom S).exchanges h x, y.1.Compiles := by
    intro y hy
    have hcall : y.1 ∈ ((planAssignment v source).runFrom S).calls h x :=
      Program.map_exchanges ▸ List.mem_map_of_mem hy
    obtain ⟨-, hc⟩ := (planAssignment_planned v source).of_mem_calls (h.meets_only _) hcall
    exact hc
  rw [assign_eq_plan hfree, Task.exchanges_bind_of_ok hplan, Task.run_bind_of_ok hplan]
  generalize ((Plan.carryOut v (.launches session kernels (S.resolve d f))).runFrom S₁).run h x₁ = r
    at hrecorded ⊢
  obtain ⟨⟨_ | _, _⟩, _⟩ := r <;>
  · obtain ⟨reached, issued, hexchanges, hreached, hissued, hend⟩ := hrecorded
    rw [List.nil_append, List.nil_append] at hexchanges
    rw [hexchanges]
    exact ⟨d, e, f, hv, he, hf, hready.current, _, reached, issued, rfl, hbefore, hreached, hissued,
      hend⟩

end Runs

namespace Sample

/-- Devices of which the first one fails to launch anything. -/
def limping : Handler (List Origin) := fun c s =>
  match c with
  | .launch device .. =>
    (if device = 0 then .error (.operation ⟨"launch", .unknown, "", none⟩) else .ok ⟨.launch, 0⟩, s)
  | c => shelf 3 c s

theorem limping_meets : limping.Meets (fun s b => s[b]?) allocations := by
  intro c s hc
  cases c with
  | launch device source grid workgroup args => rfl
  | _ => exact shelf_meets 3 _ s hc

/-- A vector on two devices, with one and with two elements. -/
def halves (h : Handler (List Origin)) : Store × List Origin :=
  let r := ((Action.operation (.construct
    ⟨[0, 1], .count 3, none, .exact .int32, .readWrite, 0, some [0, 1, 3]⟩)).run.runFrom
      ⟨#[], #[.create {} (fun _ => ⟨"sample", .number 0, .graphics, 256, fun _ => 256, 1⟩)
        (some .equally)]⟩).run h []
  (r.1.2, r.2)

theorem arises_halves (h : Handler (List Origin)) :
    Arises h (fun s b => s[b]?) (halves h).1 (halves h).2 :=
  .action _ (.opened _ _ _ (.start []) rfl) rfl

/-- The vector with the opposite sign. -/
def opposite : Operand VectorId := .expr (.unary UnaryOp.neg.tag (.vector 0))

theorem opposite_free : opposite.Free := by
  rintro e ⟨⟩
  exact ⟨_, rfl⟩

end Sample

section Samples

open Store Sample

/-- The launches on the two halves of a vector that is assigned its opposite. -/
theorem Arises.assign_launches_halves : ∃ d f session before first second,
    (halves (shelf 3)).1.vectors[0]? = some d ∧ d.filled = [(⟨0, 1, some 0, none⟩, 0),
      (⟨1, 2, some 1, none⟩, 1)] ∧
    ((assign 0 opposite).runFrom (halves (shelf 3)).1).exchanges (shelf 3) (halves (shelf 3)).2 =
      before ++ [first, second] ∧ (∀ y ∈ before, y.1.Compiles) ∧
    Launches ((halves (shelf 3)).1.vectors[·]?) (fun b => (halves (shelf 3)).2[b]?) session
      ((halves (shelf 3)).1.shapeFor d f) d f.terminals (⟨0, 1, some 0, none⟩, 0) first.1 ∧
    Launches ((halves (shelf 3)).1.vectors[·]?) (fun b => (halves (shelf 3)).2[b]?) session
      ((halves (shelf 3)).1.shapeFor d f) d f.terminals (⟨1, 2, some 1, none⟩, 1) second.1 := by
  obtain ⟨d, e, f, hv, -, -, -, before, reached, issued, hexchanges, hbefore, -, hissued, hend⟩ :=
    Arises.assign_launches (v := 0) (shelf_meets 3) (arises_halves (shelf 3)) opposite_free rfl
  have hreached : reached = d.filled := hend.1
  obtain rfl := Option.some_inj.mp (rfl.trans hv)
  have hfilled : reached = [(⟨0, 1, some 0, none⟩, 0), (⟨1, 2, some 1, none⟩, 1)] :=
    hreached.trans rfl
  subst hfilled
  obtain _ | ⟨hfirst, _ | ⟨hsecond, _ | _⟩⟩ := hissued
  exact ⟨_, f, _, before, _, _, hv, rfl, hexchanges, hbefore, hfirst, hsecond⟩

/-- The device that a call launches a kernel on. -/
def Call.launched? : Call → Option DeviceId
  | .launch device .. => some device
  | _ => none

/-- If the launch on the first device fails, there is none on the second one, although it has
elements. -/
theorem Arises.launch_missing : limping.Meets (fun s b => s[b]?) allocations ∧
    Arises limping (fun s b => s[b]?) (halves limping).1 (halves limping).2 ∧ opposite.Free ∧
    (∃ session kernels g S₁ x₁,
      ((planAssignment 0 opposite).runFrom (halves limping).1).run limping (halves limping).2 =
        ((.ok (.launches session kernels g), S₁), x₁)) ∧
    (halves limping).1.vectors[0]?.map (fun d => d.filled.map (·.1.device)) = some [0, 1] ∧
    (((assign 0 opposite).runFrom (halves limping).1).calls limping (halves limping).2).filterMap
      Call.launched? = [0] :=
  ⟨limping_meets, arises_halves limping, opposite_free, ⟨_, _, _, _, _, rfl⟩, rfl, rfl⟩

end Samples

end DistributedVector
