import DistributedVector.Proofs.Access
import DistributedVector.Store.Assign

/-!
# Assignment without products

A vector that is assigned another vector or an expression without products comes to hold what the
plain array would: the formula evaluated index by index on what the vectors hold before, also where
the target is one of them, or the elements of the other vector as they are. A refused assignment
changes no vector.

An assignment checks the target and the operands first, and gets the kernels that it needs. What is
left then is to copy shards or to launch kernels. The first half is the plan of the assignment: it
asks for nothing but compiled kernels, and changes no vector.

## Main definitions

* `Vector.SideBySide` — the shards of two vectors, pair by pair, from one index on
* `Store.Plan`, `Store.planAssignment` — what is left to be done, and how it is found
* `Store.Feasible` — everything is there to carry out a plan

## Main results

* `Store.evaluate_eq_plan`, `Store.copyFrom_eq_plan` — the two halves
* `Store.planEvaluation_ensures`, `Store.planCopy_ensures`, `Store.Feasible.carryOut_ensures` — what
  each half ensures
* `Store.evaluate_ensures` — expressions
* `Store.copyFrom_ensures` — other vectors
-/

namespace DistributedVector

namespace Vector

variable {V : Type} {A : Arithmetic V} {suits : DeviceId → KernelSource → Int → Prop} {m : Memory}
  {type : ElementType} {access access' : Access}

/-- A copy between the first shards of two lists changes the target of the copy; everything that
follows finds the other shards as they were. -/
theorem copyFirst_ensures {source mine : Shard} {sources targets : List Shard} {device : DeviceId}
    {count offset offset' shard : Nat} {rest : List Scalar} {next : Task Descriptor Unit}
    {d : Descriptor} (hsources : ShardsValid m type access (source :: sources))
    (htargets : ShardsValid m type access' (mine :: targets)) (hdevice : source.device = device)
    (hdevice' : mine.device = device)
    (hapart : ∀ b ∈ buffersOf (source :: sources), b ∉ buffersOf (mine :: targets))
    (hcount : 0 < count) (hroom : offset + count ≤ source.length)
    (hroom' : offset' + count ≤ mine.length)
    (hnext : ∀ e m₁, ShardsValid m₁ type access sources → ShardsValid m₁ type access' targets →
      contentsOf m₁ sources = contentsOf m sources → contentsOf m₁ targets = contentsOf m targets →
      next.Ensures (deviceContract A suits)
        (fun _ d' m' => Descriptor.Touched (buffersOf targets) [] (d.setEvent shard e) m₁ d' m' ∧
          contentsOf m' targets = rest)
        (Failed (buffersOf targets) [] (d.setEvent shard e) m₁) (d.setEvent shard e) m₁) :
    (do
      let e ← issue (Program.ask (.copy device source.buffer mine.buffer count offset offset'))
      modify (·.setEvent shard e)
      next : Task Descriptor Unit).Ensures (deviceContract A suits)
      (fun _ d' m' => Descriptor.Touched (buffersOf (mine :: targets)) [] d m d' m' ∧
        contentsOf m' (mine :: targets) =
          overlay offset' (((source.contents m).drop offset).take count) (mine.contents m) ++ rest)
      (Failed (buffersOf (mine :: targets)) [] d m) d m := by
  obtain ⟨b, data, hb, -, hcontents, hspan⟩ := hsources.head.span offset count hdevice (by omega)
    (by omega) (by omega)
  obtain ⟨b', data', hb', -, hcontents', hspan'⟩ :=
    htargets.head.span offset' count hdevice' (by omega)
    (by omega) (by omega)
  have hmem : [b'] ⊆ buffersOf (mine :: targets) :=
    singleton_subset_buffersOf List.mem_cons_self hb'
  have hsub : buffersOf targets ⊆ buffersOf (mine :: targets) := fun _ => mem_buffersOf_cons
  -- the copy changes the buffer of its target, which is that of no other shard on either side
  rw [hb'] at hspan' ⊢
  simp only [Task.ensures_bind, Task.ensures_modify]
  refine ensures_copy hspan hspan' (ne_of_apart hapart hb hb') (fun e values hvsize hvalues => ?_)
    fun e values hvsize => ⟨⟨e, rfl⟩, rfl,
      (Memory.Differs.setBuffer hspan'.present hvsize).mono hmem (List.Subset.refl _)⟩
  have hdiff := Memory.Differs.setBuffer hspan'.present hvsize
  refine (hnext e _ (hsources.tail.of_differs hdiff) (htargets.tail.of_differs hdiff)
    (hsources.tail_contents_of_apart hapart hb' hdiff)
    (htargets.tail_contents_of_head hb' hdiff)).imp ?_ ?_
  · intro _ d' m' hpost
    obtain ⟨htouched, hrest⟩ := hpost
    refine ⟨(htouched.widen hsub).after hdiff hmem (List.Subset.refl _), ?_⟩
    have hmine : mine.contents m' = values.toList :=
      htargets.head_contents_of_tail hb' (m.setBuffer_buffer_self b' _) htouched.memory
    rw [contentsOf_cons, hrest, hmine, hvalues, hcontents, hcontents', Int.toNat_natCast,
      Int.toNat_natCast]
  · intro e' d' m' hpost
    obtain ⟨hfault, htouched⟩ := hpost
    exact ⟨hfault, (htouched.widen hsub).after hdiff hmem (List.Subset.refl _)⟩

/-- Shards side by side with shards that are laid out alike and have buffers of their own. -/
structure SideBySide (m : Memory) (type : ElementType) (access access' : Access)
    (pairs : List (Shard × Shard)) : Prop where
  sources : ShardsValid m type access (pairs.map (·.1))
  targets : ShardsValid m type access' (pairs.map (·.2))
  alike : ∀ p ∈ pairs, p.1.device = p.2.device ∧ p.1.length = p.2.length
  apart : ∀ b ∈ buffersOf (pairs.map (·.1)), b ∉ buffersOf (pairs.map (·.2))

theorem SideBySide.tail {pair : Shard × Shard} {rest : List (Shard × Shard)}
    (h : SideBySide m type access access' (pair :: rest)) :
    SideBySide m type access access' rest where
  sources := h.sources.tail
  targets := h.targets.tail
  alike p hp := h.alike p (List.mem_cons_of_mem _ hp)
  apart b hb hb' := h.apart b (mem_buffersOf_cons hb) (mem_buffersOf_cons hb')

/-- Copying shard by shard gives the shards of the target the elements of the others. -/
theorem copyShards_ensures {pairs : List (Shard × Shard)} :
    ∀ {index : Nat} {d : Descriptor} {m : Memory}, SideBySide m type access access' pairs →
    (copyShards index pairs).Ensures (deviceContract A suits)
      (fun _ d' m' => Descriptor.Touched (buffersOf (pairs.map (·.2))) [] d m d' m' ∧
        contentsOf m' (pairs.map (·.2)) = contentsOf m (pairs.map (·.1)))
      (Failed (buffersOf (pairs.map (·.2))) [] d m) d m := by
  induction pairs with
  | nil => exact fun _ => ⟨.refl _ _ _ _, rfl⟩
  | cons pair rest ih =>
    obtain ⟨source, mine⟩ := pair
    intro index d m hpairs
    obtain ⟨hdevice, hlength⟩ : source.device = mine.device ∧ source.length = mine.length :=
      hpairs.alike _ List.mem_cons_self
    have hsource : ShardsValid m type access (source :: rest.map (·.1)) := hpairs.sources
    have hmine : ShardsValid m type access' (mine :: rest.map (·.2)) := hpairs.targets
    simp only [List.map_cons, copyShards, Task.ensures_ite]
    refine ⟨fun hzero => ?_, fun hne => ?_⟩
    · -- shards without elements have no buffers
      have hnone : source.buffer = none := hsource.head.absent.mpr (hlength.trans hzero)
      have hnone' : mine.buffer = none := hmine.head.absent.mpr hzero
      simp only [buffersOf_cons, contentsOf_cons]
      rw [hnone', Option.toList_none, List.nil_append]
      refine (ih hpairs.tail).imp_ok ?_
      intro _ d' m' hpost
      obtain ⟨htouched, hcontents⟩ := hpost
      refine ⟨htouched, ?_⟩
      rw [Shard.contents_of_none hnone, Shard.contents_of_none hnone', hcontents]
    · have hwhole : overlay 0 (((source.contents m).drop 0).take mine.length) (mine.contents m) =
          source.contents m :=
        overlay_whole (hsource.head.length_contents.trans hlength) hmine.head.length_contents
      have hroom : 0 + mine.length ≤ source.length := by omega
      have hroom' : 0 + mine.length ≤ mine.length := by omega
      rw [contentsOf_cons, ← hwhole]
      refine copyFirst_ensures hsource hmine hdevice rfl hpairs.apart
        (Nat.pos_of_ne_zero hne) hroom hroom'
        fun e m₁ hsource' hmine' hcontents hcontents' => ?_
      rw [← hcontents]
      exact ih ⟨hsource', hmine', hpairs.tail.alike, hpairs.tail.apart⟩

theorem checkLayout_eq_ok {d w : Descriptor} (h : d.checkLayout w = .ok ()) :
    w.layout = d.layout := by
  unfold Descriptor.checkLayout at h
  split at h
  next hsame => exact (of_decide_eq_true hsame).symm
  · cases h

theorem checkLayouts_eq_ok {d : Descriptor} {ws : List Descriptor}
    (h : checkLayouts d ws = .ok ()) : ∀ w ∈ ws, w.layout = d.layout := by
  induction ws with
  | nil => exact nofun
  | cons w rest ih =>
    obtain ⟨_, hw, hrest⟩ := bind_eq_ok_iff.mp h
    rintro w' (_ | ⟨_, hw'⟩)
    · exact checkLayout_eq_ok hw
    · exact ih hrest w' hw'

end Vector

theorem Descriptor.size_of_layout {d w : Descriptor} (h : w.layout = d.layout) :
    w.size = d.size := by
  have := congrArg (List.map Prod.snd) h
  rw [layout, layout, List.map_map, List.map_map] at this
  exact congrArg total this

namespace Store

open DistributedVector.Vector

variable {V : Type} {A : Arithmetic V} {F : Fleet} {m : Memory} {S : Store} {p : Plain}
  {v w : VectorId}

theorem vectorsOf_ensures {μ : Type} {K : Contract μ} {x : μ} {vs : List VectorId} :
    (vectorsOf vs).Ensures K
      (fun ds S' x' => S' = S ∧ x' = x ∧ List.Forall₂ (fun v d => S.vectors[v]? = some d) vs ds)
      (fun _ S' x' => S' = S ∧ x' = x) S x := by
  induction vs with
  | nil => exact ⟨rfl, rfl, .nil⟩
  | cons v rest ih =>
    simp only [vectorsOf, Task.ensures_bind, vector_ensures, Task.ensures_pure]
    refine ⟨fun d hv => ih.imp ?_ fun _ _ _ h => h, fun _ => ⟨trivial, trivial⟩⟩
    intro ds S' m' hpost
    obtain ⟨hS', hm', hds⟩ := hpost
    exact ⟨hS', hm', .cons hv hds⟩

/-- The vectors of a formula that have been looked up and checked are laid out like the target. -/
theorem layout_of_checkLayouts {d : Descriptor} {f : Formula VectorId} {ws : List Descriptor}
    (hws : List.Forall₂ (fun v d => S.vectors[v]? = some d) f.vectors ws)
    (hlayouts : checkLayouts d ws = .ok ()) {w : VectorId} (hw : .vector w ∈ f.terminals) :
    ∃ e, S.vectors[w]? = some e ∧ e.layout = d.layout := by
  have hmem : w ∈ f.vectors := List.mem_filterMap.mpr ⟨_, hw, rfl⟩
  obtain ⟨i, hi⟩ := List.getElem?_of_mem hmem
  obtain ⟨e, he, hwe⟩ := getElem?_of_forall₂ hws hi
  exact ⟨e, hwe, checkLayouts_eq_ok hlayouts e (List.mem_of_getElem? he)⟩

/-- A vector of a resolved formula is one of the store. -/
theorem exists_of_mem_resolved {d : Descriptor} {f : Formula VectorId}
    (hleaves : ∀ w, .vector w ∈ f.terminals → ∃ e, S.vectors[w]? = some e ∧ e.layout = d.layout)
    {e : Descriptor} (he : .vector e ∈ (f.map fun w => S.vectors.getD w d).terminals) :
    ∃ w : VectorId, S.vectors[w]? = some e ∧ e.layout = d.layout := by
  rw [Formula.terminals_map] at he
  obtain ⟨t, ht, hte⟩ := List.mem_map.mp he
  cases t with
  | scalar x dt => cases hte
  | vector w =>
    obtain ⟨e', he', hlayout⟩ := hleaves w ht
    have hsame : S.vectors.getD w d = e' := by
      rw [Array.getD_eq_getD_getElem?, he', Option.getD_some]
    obtain rfl : e' = e := hsame.symm.trans (Terminal.vector.inj hte)
    exact ⟨w, he', hlayout⟩

/-- The vectors of a formula that have been looked up and are laid out alike are readable. -/
theorem readable_of_lookup (hS : S.Valid F m) {d : Descriptor} (hv : S.vectors[v]? = some d)
    {f : Formula VectorId} (hleaves : ∀ w, .vector w ∈ f.terminals →
      ∃ e, S.vectors[w]? = some e ∧ e.layout = d.layout) {w' : Descriptor}
    (hw' : .vector w' ∈ (f.map fun w => S.vectors.getD w d).terminals) : Readable m d w' := by
  obtain ⟨w, hw, hlayout⟩ := exists_of_mem_resolved hleaves hw'
  refine ⟨(hS.vectors w w' hw).1, hlayout, ?_⟩
  by_cases hwv : w = v
  · subst hwv
    obtain rfl := Option.some_inj.mp (hw.symm.trans hv)
    exact .inl rfl
  · exact .inr fun b hb => hS.apart w v w' d hw hv hwv b hb

/-! ## Plans -/

/-- What is left of an assignment when everything has been checked. -/
inductive Plan
  | nothing
  /-- the shards of another vector are copied -/
  | copy (pairs : List (Shard × Shard))
  /-- the kernels of a formula are launched -/
  | launches (session : Session) (kernels : List (Key × CompiledKernel)) (f : Formula Descriptor)

/-- Does what is left to be done. -/
def Plan.carryOut (v : VectorId) : Plan → Task Store Unit
  | nothing => return ()
  | copy pairs => onVector v (copyShards 0 pairs)
  | launches session kernels f => onVector v (dispatch session kernels f)

/-- The plan for an expression. -/
def planEvaluation (v : VectorId) (e : Expr VectorId) : Task Store Plan := do
  let target ← vector v
  if target.access = .readOnly then throw (.device readOnlyTarget)
  let f ← orFault .expr e.formula
  orFault .vector (checkLayouts target (← vectorsOf f.vectors))
  if target.size = 0 then return .nothing
  let table := (← MonadState.get).vectors
  let resolved := f.map fun w => table.getD w target
  let kernels ← onSession target.session
    (Session.kernelsFor target.devices (resolved.map fun d => .element d.type)
      (some (.element target.type)))
  return .launches (← session target.session) kernels resolved

/-- The plan for another vector. -/
def planCopy (v w : VectorId) : Task Store Plan := do
  if v = w then return .nothing
  let target ← vector v
  let source ← vector w
  orFault .vector (target.checkLayout source)
  if source.type ≠ target.type then planEvaluation v (.vector w)
  else return .copy (source.shards.zip target.shards)

/-- The plan of an assignment. -/
def planAssignment (v : VectorId) (source : Operand VectorId) : Task Store Plan := do
  match ← orFault .expr source.toExpr with
  | .vector w => planCopy v w
  | e => planEvaluation v e

theorem ite_bind {α β τ : Type} {p : Prop} [Decidable p] (t u : Task τ α) (g : α → Task τ β) :
    (if p then t else u) >>= g = if p then t >>= g else u >>= g := apply_ite (· >>= g) p t u

theorem evaluate_eq_plan (e : Expr VectorId) :
    evaluate v e = planEvaluation v e >>= Plan.carryOut v := by
  simp only [evaluate, planEvaluation, bind_assoc, ite_bind, pure_bind, Plan.carryOut]

theorem copyFrom_eq_plan : copyFrom v w = planCopy v w >>= Plan.carryOut v := by
  simp only [copyFrom, planCopy, evaluate_eq_plan, bind_assoc, ite_bind, pure_bind, Plan.carryOut]

/-- A formula over the vectors of a store that are looked up for a target. -/
def resolve (S : Store) (d : Descriptor) (f : Formula VectorId) : Formula Descriptor :=
  f.map fun w => S.vectors.getD w d

/-- Nothing has changed but the sessions, which are right. -/
structure Settled (F : Fleet) (S : Store) (m : Memory) (S' : Store) (m' : Memory) : Prop where
  vectors : S'.vectors = S.vectors
  memory : m' = m
  sessions : ∀ (k : SessionId) (s : Session), S'.sessions[k]? = some s → s.Sound F

namespace Settled

variable {S' S'' : Store} {m' m'' : Memory} {B : List BufferId} {C : List CellId}

theorem refl (hS : S.Valid F m) : Settled F S m S m := ⟨rfl, rfl, hS.sessions⟩

theorem kept (h : Settled F S m S' m') : Kept F B C S m S' m' :=
  ⟨fun v => by rw [h.vectors], h.memory ▸ .refl B C m, h.sessions⟩

theorem stopped (h : Settled F S m S' m') (e : Fault) : Stopped F B C S m e S' m' :=
  ⟨h.kept, fun _ => ⟨h.vectors, h.memory ▸ .refl [] [] m⟩⟩

/-- What a failed operation leaves is the same from before. -/
theorem trans_stopped (h : Settled F S m S' m') {e : Fault} (h' : Stopped F B C S' m' e S'' m'') :
    Stopped F B C S m e S'' m'' := by
  obtain ⟨hvectors, rfl, -⟩ := id h
  exact ⟨h.kept.trans h'.1, fun hr => ⟨(h'.2 hr).1.trans hvectors, (h'.2 hr).2⟩⟩

end Settled

/-- Everything is there to carry out a plan, which makes `result` of the plain arrays. -/
inductive Feasible (A : Arithmetic V) (F : Fleet) (S : Store) (m : Memory)
    (p : Plain) (v : VectorId) (result : Option Plain) : Plan → Prop
  | nothing (done : Becomes F result S m) : Feasible A F S m p v result .nothing
  | copy {w : VectorId} {d a : Descriptor} (target : S.vectors[v]? = some d)
    (source : S.vectors[w]? = some a) (apart : v ≠ w) (layout : a.layout = d.layout)
    (type : a.type = d.type) (makes : result = some (p.put v d.type (a.contents m))) :
    Feasible A F S m p v result (.copy (a.shards.zip d.shards))
  | launches {d : Descriptor} {session : Session} {kernels : List (Key × CompiledKernel)}
    {f : Formula Descriptor} (target : S.vectors[v]? = some d)
    (hardware : session.hardware = F.hardware) (ready : Launching F m d f kernels)
    (makes : ∀ xs, A.byKernel.results d.type d.size (Descriptor.look m) f = some xs →
      result = some (p.put v d.type xs)) :
    Feasible A F S m p v result (.launches session kernels f)

/-- The results of a formula over the vectors of a store are those over the plain arrays. -/
theorem Represents.evaluate_eq (hp : Represents S m p) {d : Descriptor}
    (hv : S.vectors[v]? = some d) (hvalid : d.Valid m)
    {f : Formula VectorId} (hleaves : ∀ w, .vector w ∈ f.terminals →
      ∃ a, S.vectors[w]? = some a ∧ a.layout = d.layout) {xs : List Scalar}
    {E : Evaluation} (hxs : E.results d.type d.size (Descriptor.look m) (S.resolve d f) = some xs) :
    p.evaluate E v f = some (p.put v d.type xs) := by
  rw [resolve, Evaluation.results_map] at hxs
  have hcongr : E.results d.type d.size (Descriptor.look m ∘ fun w => S.vectors.getD w d) f =
      E.results d.type d.size (p.vectors[·]?) f := Evaluation.results_congr fun w hw => by
    obtain ⟨a, ha, -⟩ := hleaves w hw
    simp only [Function.comp_apply, Descriptor.look, Array.getD_eq_getD_getElem?, ha,
      Option.getD_some, hp.getElem?_eq_some ha]
  rw [hcongr] at hxs
  simp [Plain.evaluate, hp.getElem?_eq_some hv, hvalid.length_contents, hxs]

/-- A plan for an expression can be carried out, and the vectors and the memory have not changed. -/
theorem planEvaluation_ensures (hS : S.Valid F m) (hp : Represents S m p) {e : Expr VectorId} :
    (planEvaluation v e).Ensures (deviceContract A F.suits)
      (fun plan S' m' => Settled F S m S' m' ∧
        ∃ f, e.formula? = some f ∧ Feasible A F S m p v (p.evaluate A.byKernel v f) plan)
      (fun _ S' m' => Settled F S m S' m') S m := by
  have hself : Settled F S m S m := .refl hS
  simp only [planEvaluation, Task.ensures_bind, vector_ensures, Task.ensures_ite,
    Task.ensures_throw, ensures_orFault, Task.ensures_get, session_ensures, onSession_ensures,
    Task.ensures_pure]
  refine ⟨fun d hv => ⟨fun _ => hself, fun hwritable => ⟨fun f hf => ?_, fun _ _ => hself⟩⟩,
    fun _ => hself⟩
  obtain ⟨hvalid, huse⟩ := hS.vectors v d hv
  have hf : e.formula? = some f := by
    unfold Expr.formula at hf
    split at hf
    next f' hf' =>
      cases hf
      exact hf'
    · cases hf
  apply vectorsOf_ensures.imp
  swap
  · rintro e S' m' ⟨rfl, rfl⟩
    exact hself
  rintro ws S' m' ⟨rfl, rfl, hws⟩
  refine ⟨fun _ hlayouts => ?_, fun _ _ => hself⟩
  have hleaves : ∀ w, .vector w ∈ f.terminals →
      ∃ a, S'.vectors[w]? = some a ∧ a.layout = d.layout :=
    fun w hw => layout_of_checkLayouts hws hlayouts hw
  have hmakes : ∀ xs, A.byKernel.results d.type d.size (Descriptor.look m')
    (S'.resolve d f) = some xs →
      p.evaluate A.byKernel v f = some (p.put v d.type xs) :=
    fun xs hxs => hp.evaluate_eq hv hvalid hleaves hxs
  refine ⟨fun hzero => ⟨hself, f, hf, .nothing ?_⟩, fun _ => ⟨fun s hs => ?_, fun _ => hself⟩⟩
  · -- there is nothing to compute in a vector without elements
    have hnil : d.contents m' = [] :=
      List.eq_nil_of_length_eq_zero (hvalid.length_contents.trans hzero)
    rw [hmakes [] (by simp [Evaluation.results, hzero])]
    apply (Kept.refl hS [] []).becomes_put hS hp hv (List.nil_subset _)
    intro d' hd'
    obtain rfl := Option.some_inj.mp (hv.symm.trans hd')
    exact hnil
  have hsettled : ∀ {s' : Session}, s'.Sound F → Settled F S' m'
      { S' with sessions := S'.sessions.setIfInBounds d.session s' } m' := fun hs' =>
    ⟨rfl, rfl, (Kept.of_session hS hs' (.refl [] [] m')).sessions⟩
  apply (Session.kernelsFor_ensures (hS.sessions _ s hs) huse).imp
  swap
  · rintro e s' m'' ⟨hs', rfl⟩
    exact hsettled hs'
  rintro kernels s' m'' ⟨hs', rfl, hkernels⟩
  refine ⟨fun current hcurrent => ⟨hsettled hs', f, hf, .launches hv ?_ ?_ hmakes⟩,
    fun _ => hsettled hs'⟩
  · exact ((hsettled hs').sessions _ current hcurrent).hardware
  · exact .of_right hvalid huse hwritable hkernels fun w hw => readable_of_lookup hS hv hleaves hw

/-- A plan for another vector can be carried out, and the vectors and the memory have not
changed. -/
theorem planCopy_ensures (hS : S.Valid F m) (hp : Represents S m p) :
    (planCopy v w).Ensures (deviceContract A F.suits)
      (fun plan S' m' => Settled F S m S' m' ∧ Feasible A F S m p v (p.take A.byKernel v w) plan)
      (fun _ S' m' => Settled F S m S' m') S m := by
  have hself : Settled F S m S m := .refl hS
  simp only [planCopy, Task.ensures_ite, Task.ensures_bind, Task.ensures_pure, vector_ensures,
    ensures_orFault, Plain.take]
  refine ⟨fun hsame => ⟨hself, .nothing ?_⟩,
    fun hne => ⟨fun d hv => ⟨fun a hw => ⟨fun _ hlayout => ?_,
    fun _ _ => hself⟩, fun _ => hself⟩, fun _ => hself⟩⟩
  · rw [if_pos hsame]
    exact (Kept.refl hS [] []).becomes_self hS hp
  have hlayout := checkLayout_eq_ok hlayout
  have hlength : (a.contents m).length = (d.contents m).length := by
    rw [(hS.vectors v d hv).1.length_contents, (hS.vectors w a hw).1.length_contents,
      Descriptor.size_of_layout hlayout]
  simp only [if_neg hne, hp.getElem?_eq_some hv, hp.getElem?_eq_some hw, Option.bind_eq_bind,
    Option.bind_some]
  refine ⟨fun htypes => ?_, fun htypes => ?_⟩
  · -- elements of another type are converted by a kernel
    refine (planEvaluation_ensures hS hp).imp_ok ?_
    rintro plan S' m' ⟨hsettled, f, hf, hfeasible⟩
    cases hf
    refine ⟨hsettled, ?_⟩
    rw [if_neg htypes, hlength]
    simpa [Plain.evaluate, hp.getElem?_eq_some hv] using hfeasible
  · have htypes := Decidable.not_not.mp htypes
    exact ⟨hself, .copy hv hw hne hlayout htypes (if_pos htypes)⟩

/-- The shards of two vectors that are laid out alike. -/
theorem Valid.sideBySide (hS : S.Valid F m) {d a : Descriptor} (hv : S.vectors[v]? = some d)
    (hw : S.vectors[w]? = some a) (hne : v ≠ w) (hlayout : a.layout = d.layout)
    (htypes : a.type = d.type) : SideBySide m d.type a.access d.access (a.shards.zip d.shards) := by
  obtain ⟨hfst, hsnd, halike⟩ := zip_shards (f := fun s => (s.device, s.length)) hlayout
  refine ⟨?_, ?_, fun q hq => Prod.mk.inj (halike q hq), ?_⟩
  · rw [hfst, ← htypes]
    exact (hS.vectors w a hw).1
  · rw [hsnd]
    exact (hS.vectors v d hv).1
  · rw [hfst, hsnd]
    exact fun b hb => hS.apart w v a d hw hv (Ne.symm hne) b hb

/-- A plan that can be carried out makes of the vectors what it makes of the plain arrays. -/
theorem Feasible.carryOut_ensures (hS : S.Valid F m) (hp : Represents S m p) {result : Option Plain}
    {plan : Plan} (h : Feasible A F S m p v result plan) {S' : Store} {m' : Memory}
    (hsettled : Settled F S m S' m') :
    (plan.carryOut v).Ensures (deviceContract A F.suits)
      (fun _ S'' m'' => Kept F (S.buffers v) [] S m S'' m'' ∧ Becomes F result S'' m'')
      (Stopped F (S.buffers v) [] S m) S' m' := by
  have hS' : S'.Valid F m' := hsettled.kept (B := []) (C := []) |>.valid hS
  have hp' : Represents S' m' p := hp.of_kept hS hsettled.kept
  have hkept : Kept F (S.buffers v) [] S m S' m' := hsettled.kept
  have hvectors := hsettled.vectors
  obtain rfl := hsettled.memory
  cases h with
  | nothing hdone =>
    obtain ⟨-, q, hq, hrep⟩ := hdone
    exact ⟨hkept, hS', q, hq, hrep.of_kept hS hsettled.kept⟩
  | copy hv hw hne hlayout htypes hmakes =>
    rename_i w d a
    have hv' : S'.vectors[v]? = some d := hvectors ▸ hv
    rw [Plan.carryOut, onVector_ensures_of_some hv']
    obtain ⟨hfst, hsnd, -⟩ := zip_shards (f := fun s => (s.device, s.length)) hlayout
    have hcopy : (copyShards 0 (a.shards.zip d.shards)).Ensures
        (deviceContract A F.suits) _ _ d m' :=
      copyShards_ensures (hS.sideBySide hv hw hne hlayout htypes)
    rw [hfst, hsnd] at hcopy
    rw [buffers_eq hv] at hkept ⊢
    refine hcopy.imp ?_ fun _ _ _ h => hsettled.trans_stopped (.of_vector hS' hv' h.stopped)
    rintro _ d' m'' ⟨htouched, hcontents⟩
    refine ⟨hkept.trans (.of_touched hS' hv' htouched), ?_⟩
    rw [hmakes]
    apply becomes_of_touched hS' hp' hv' htouched
    rw [Descriptor.contents_of_forget htouched.same]
    exact hcontents
  | launches hv hhardware hready hmakes =>
    rename_i d session kernels f
    have hv' : S'.vectors[v]? = some d := hvectors ▸ hv
    rw [Plan.carryOut, onVector_ensures_of_some hv']
    -- the plan has left vectors and memory as they were, so the launches find what it has seen
    rw [buffers_eq hv] at hkept ⊢
    refine (dispatch_ensures hready hhardware).imp ?_
      fun _ _ _ h => hsettled.trans_stopped (.of_vector hS' hv' h.stopped)
    rintro _ d' m'' ⟨htouched, hvalues⟩
    refine ⟨hkept.trans (.of_touched hS' hv' htouched), ?_⟩
    rw [hmakes _ hvalues]
    exact becomes_of_touched hS' hp' hv' htouched rfl

/-- An expression without products is evaluated index by index on what the vectors hold before. -/
theorem evaluate_ensures (hS : S.Valid F m) (hp : Represents S m p) {e : Expr VectorId} :
    (evaluate v e).Ensures (deviceContract A F.suits)
      (fun _ S' m' => Kept F (S.buffers v) [] S m S' m' ∧
        ∃ f, e.formula? = some f ∧ Becomes F (p.evaluate A.byKernel v f) S' m')
      (Stopped F (S.buffers v) [] S m) S m := by
  rw [evaluate_eq_plan, Task.ensures_bind]
  refine (planEvaluation_ensures hS hp).imp ?_ fun e _ _ h => h.stopped e
  rintro plan S' m' ⟨hsettled, f, hf, hfeasible⟩
  refine (hfeasible.carryOut_ensures hS hp hsettled).imp_ok ?_
  exact fun _ _ _ ⟨hkept, hbecomes⟩ => ⟨hkept, f, hf, hbecomes⟩

/-- A vector takes the elements of another one. -/
theorem copyFrom_ensures (hS : S.Valid F m) (hp : Represents S m p) :
    (copyFrom v w).Ensures (deviceContract A F.suits)
      (fun _ S' m' => Kept F (S.buffers v) [] S m S' m' ∧ Becomes F (p.take A.byKernel v w) S' m')
      (Stopped F (S.buffers v) [] S m) S m := by
  rw [copyFrom_eq_plan, Task.ensures_bind]
  refine (planCopy_ensures hS hp).imp ?_ fun e _ _ h => h.stopped e
  exact fun plan _ _ ⟨hsettled, hfeasible⟩ => hfeasible.carryOut_ensures hS hp hsettled

end Store

end DistributedVector
