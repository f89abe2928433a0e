import DistributedVector.Proofs.ShareRequests

/-!
# Expressions over compatible vectors

An assignment raises a fault about layouts only where it compares layouts: of another vector that is
copied, or of the vectors that kernels read. So it raises none where these are all laid out like the
target, as are the vectors of one session that have the same devices and the same size.

## Main definitions

* `Task.Faults` — which faults a task can have
* `Operand.Reads` — the vectors whose layouts matter
* `Change`, `Course` — what gives vectors of sessions their boundaries, and runs of it
* `NotedCourse` — runs with the measurements that are made in them

## Main results

* `Store.assign_other` — no fault about layouts
* `Change.foreseen` — a change asks for shares at most once
* `Course.advances` — sessions go on, and stand by the boundaries of their vectors
* `course_iff_exists_noted`, `NotedCourse.noted` — every run has measurements, and what is measured
  in it
* `Course.compatible` — all that holds of runs
-/

namespace DistributedVector

open DistributedVector.Task

namespace Task

variable {α β τ υ : Type} {p : Fault → Prop}

/-- Whatever is replied, only faults of one sort arise. -/
def Faults (p : Fault → Prop) (t : Task τ α) : Prop :=
  ∀ s, t.Ensures .any (fun _ _ _ => True) (fun e _ _ => p e) s ()

theorem faults_pure (a : α) : (pure a : Task τ α).Faults p := fun _ => trivial

theorem faults_throw {e : Fault} (h : p e) : (throw e : Task τ α).Faults p := fun _ => h

theorem faults_get : (get : Task τ τ).Faults p := fun _ => trivial

theorem faults_modify (f : τ → τ) : (modify f : Task τ PUnit).Faults p := fun _ => trivial

theorem faults_perform (q : Program α) : (perform q : Task τ α).Faults p := fun _ =>
  ensures_perform.mpr (Program.ensures_any fun _ => trivial)

theorem faults_ofExcept {r : Except Fault α} (h : ∀ e, r = .error e → p e) :
    (ofExcept r : Task τ α).Faults p := fun _ =>
  ensures_ofExcept.mpr ⟨fun _ _ => trivial, h⟩

theorem Faults.bind {t : Task τ α} {g : α → Task τ β} (ht : t.Faults p) (hg : ∀ a, (g a).Faults p) :
    (t >>= g).Faults p := fun s =>
  ensures_bind.mpr ((ht s).imp (fun a s' _ _ => hg a s') fun _ _ _ h => h)

theorem Faults.ite {q : Prop} [Decidable q] {t u : Task τ α} (ht : t.Faults p) (hu : u.Faults p) :
    (if q then t else u).Faults p := by
  split
  · exact ht
  · exact hu

theorem Faults.zoom {view : τ → υ} {update : υ → τ → τ} {t : Task υ α} (ht : t.Faults p) :
    (t.zoom view update).Faults p := fun s => ensures_zoom.mpr (ht (view s))

theorem faults_orFault {ε : Type} {f : ε → Fault} (h : ∀ e, p (f e)) (r : Except ε α) :
    (orFault f r : Task τ α).Faults p := fun _ =>
  ensures_orFault.mpr ⟨fun _ _ => trivial, fun e _ => h e⟩

theorem faults_issue (h : ∀ e, p (.device e)) (q : Program (Except DeviceFault α)) :
    (issue q : Task τ α).Faults p := fun _ =>
  ensures_issue.mpr (Program.ensures_any fun _ => ⟨fun _ _ => trivial, fun e _ => h e⟩)

end Task

/-- A fault that does not concern layouts. -/
def Fault.Other (e : Fault) : Prop := e.kind ≠ .layout

theorem other_device (e : DeviceFault) : (Fault.device e).Other := by cases e <;> nofun

theorem other_expr (e : ExprFault) : (Fault.expr e).Other := by cases e <;> nofun

theorem other_number (e : NumberFault) : (Fault.number e).Other := by cases e <;> nofun

namespace Vector

variable {α τ : Type}

theorem issue_other (q : Program (Except DeviceFault α)) :
    (issue q : Task τ α).Faults Fault.Other :=
  faults_issue other_device q

theorem startWrites_other (data : Array Scalar) (pieces : List Piece) :
    (startWrites data pieces).Faults Fault.Other := by
  induction pieces with
  | nil => exact faults_pure ()
  | cons p rest ih => exact (issue_other _).bind fun _ => (faults_modify _).bind fun _ => ih

theorem startReads_other (view : HostView) (pieces : List Piece) :
    (startReads view pieces).Faults Fault.Other := by
  induction pieces with
  | nil => exact faults_pure ()
  | cons p rest ih => exact (issue_other _).bind fun _ => (faults_modify _).bind fun _ => ih

theorem waitFor_other (pieces : List Piece) : (waitFor pieces).Faults Fault.Other := by
  induction pieces with
  | nil => exact faults_pure ()
  | cons p rest ih =>
    refine faults_get.bind fun d => ?_
    split
    · exact (issue_other _).bind fun _ => ih
    · exact ih

theorem checkRange_other (offset count : Int) : (checkRange offset count).Faults Fault.Other := by
  refine faults_get.bind fun d s => ensures_orFault.mpr ⟨fun _ _ => trivial, fun e he => ?_⟩
  rw [Descriptor.checkRange] at he
  split at he
  · cases he
    nofun
  · cases he

theorem write_other (offset count : Int) (data : HostData) (blocking : Bool) :
    (write offset count data blocking).Faults Fault.Other := by
  refine .ite (faults_pure _) ((checkRange_other _ _).bind fun _ => faults_get.bind fun d =>
    (faults_orFault other_number _).bind fun values => .ite (faults_throw nofun) ?_)
  exact (startWrites_other _ _).bind fun _ => .ite (waitFor_other _) (faults_pure _)

theorem readAll_other : readAll.Faults Fault.Other := by
  have htarget : ∀ type count, (target type count .fresh).Faults Fault.Other := fun type count =>
    .ite (faults_throw nofun) ((faults_perform _).bind fun _ => faults_pure _)
  refine faults_get.bind fun _ => Faults.bind ?_ fun _ =>
    (faults_perform _).bind fun _ => faults_pure _
  refine faults_get.bind fun _ => (htarget _ _).bind fun _ => .ite (faults_pure _) <|
    (checkRange_other _ _).bind fun _ => .ite (faults_throw nofun) (faults_get.bind fun _ => ?_)
  exact (startReads_other _ _).bind fun _ =>
    .ite ((waitFor_other _).bind fun _ => faults_pure _) (faults_pure _)

theorem copyShards_other (index : Nat) (pairs : List (Shard × Shard)) :
    (copyShards index pairs).Faults Fault.Other := by
  induction pairs generalizing index with
  | nil => exact faults_pure ()
  | cons p rest ih =>
    rw [copyShards]
    exact .ite (ih _) ((issue_other _).bind fun _ => (faults_modify _).bind fun _ => ih _)

theorem leafArgument_other {device : Int} {leaf : Terminal Descriptor} {e : Fault}
    (h : leafArgument device leaf = .error e) : e.Other := by
  cases leaf with
  | vector v =>
    rw [leafArgument] at h
    split at h <;> cases h
    exact fun hkind => by cases hkind
  | scalar x t =>
    rw [leafArgument] at h
    cases hx : scalarArgument x t with
    | ok a => simp [hx] at h
    | error e' =>
      rw [hx, mapError_error] at h
      exact Except.error.inj h ▸ other_number e'

theorem bindArguments_other {target : Descriptor} {device : Int}
    {leaves : List (Terminal Descriptor)} {e : Fault}
    (h : bindArguments target device leaves = .error e) : e.Other := by
  unfold bindArguments at h
  split at h
  · split at h
    · cases h
      nofun
    · cases hleaves : leaves.mapM (leafArgument device) with
      | ok args =>
        rw [hleaves] at h
        cases h
      | error e' =>
        rw [hleaves] at h
        cases h
        obtain ⟨leaf, -, hleaf⟩ := exists_of_mapM_eq_error hleaves
        exact leafArgument_other hleaf
  · split at h <;> cases h <;> nofun
  · cases h
    nofun

variable (session : Session) (kernels : List (Key × CompiledKernel))
  (leaves : List (Terminal Descriptor))

theorem launch_other (index : Nat) (s : Shard) :
    (launch session kernels leaves index s).Faults Fault.Other := by
  have hthreads : ∀ {kind units n workgroup waves e},
      globalSize kind units n workgroup waves = .error e → Fault.Other e := by
    intro kind units n workgroup waves e he
    unfold globalSize at he
    split at he
    · split at he <;> cases he
      exact fun hkind => by cases hkind
    · cases he
  rw [launch]
  split
  · exact faults_throw fun hkind => by cases hkind
  · exact (faults_ofExcept fun e he => hthreads he).bind fun _ => faults_get.bind fun _ =>
      (faults_ofExcept fun e he => bindArguments_other he).bind fun _ =>
        (issue_other _).bind fun _ => faults_modify _

theorem dispatch_other (f : Formula Descriptor) :
    (dispatch session kernels f).Faults Fault.Other := by
  have hfrom : ∀ index shards, (launchFrom session kernels f.terminals index shards).Faults
      Fault.Other := by
    intro index shards
    induction shards generalizing index with
    | nil => exact faults_pure ()
    | cons s rest ih =>
      rw [launchFrom]
      exact .ite (ih _) ((launch_other session kernels _ index s).bind fun _ => ih _)
  exact faults_get.bind fun _ => hfrom _ _

end Vector

theorem KernelCache.kernelsFor_other {config : SessionConfig} {hardware : Hardware}
    {devices : List DeviceId} {f : Formula DataType} {result : Option DataType} :
    (kernelsFor config hardware devices f result).Faults Fault.Other := by
  have hbuild : ∀ first group f result,
      (build config hardware first group f result : Task KernelCache _).Faults Fault.Other :=
    fun first group f result => (faults_orFault other_expr _).bind fun _ =>
      have hcompile :=
        (Vector.issue_other _).bind fun _ => (faults_perform _).bind fun _ => faults_pure _
      .ite ((faults_perform _).bind fun _ => hcompile) hcompile
  have hone : ∀ group, (getOrBuild config hardware group f result).Faults Fault.Other := by
    intro group
    cases group with
    | nil => exact faults_throw nofun
    | cons first rest =>
      refine faults_get.bind fun c => ?_
      split
      · exact (faults_modify _).bind fun _ => faults_pure _
      · exact (hbuild _ _ _ _).bind fun _ => (faults_modify _).bind fun _ => faults_pure _
  rw [kernelsFor]
  induction groupByContext (fun d => (hardware d).context) devices with
  | nil => exact faults_pure _
  | cons group rest ih => exact (hone _).bind fun _ => ih.bind fun _ => faults_pure _

/-- The vectors that an assignment compares with its target: those of the source outside
products. -/
def Operand.Reads (source : Operand VectorId) (w : VectorId) : Prop :=
  ∃ e rest f, source.toExpr = .ok e ∧ e.split.1 = some rest ∧ rest.formula = .ok f ∧ w ∈ f.vectors

namespace Store

open DistributedVector.Vector

variable {α : Type} {S : Store} {v : VectorId} {d : Descriptor}

theorem vector_other (v : VectorId) : (vector v).Faults Fault.Other := fun _ =>
  vector_ensures.mpr ⟨fun _ _ => trivial, fun _ => nofun⟩

theorem onVector_other {t : Task Descriptor α} (ht : t.Faults Fault.Other) (v : VectorId) :
    (onVector v t).Faults Fault.Other :=
  (vector_other v).bind fun _ => ht.zoom

theorem session_other (k : SessionId) : (session k).Faults Fault.Other := fun _ =>
  session_ensures.mpr ⟨fun _ _ => trivial, fun _ => nofun⟩

theorem onSession_other {t : Task Session α} (ht : t.Faults Fault.Other) (k : SessionId) :
    (onSession k t).Faults Fault.Other :=
  (session_other k).bind fun _ => ht.zoom

theorem vectorsOf_other (vs : List VectorId) : (vectorsOf vs).Faults Fault.Other := by
  induction vs with
  | nil => exact faults_pure _
  | cons v rest ih => exact (vector_other v).bind fun _ => ih.bind fun _ => faults_pure _

theorem applyProducts_other (v : VectorId) (append : Bool)
    (products : List (Sign × Product VectorId)) :
    (applyProducts v append products).Faults Fault.Other := by
  have hread : ∀ w, (onVector w readAll).Faults Fault.Other :=
    fun w => onVector_other readAll_other w
  have hwrite : ∀ n data, (onVector v (Vector.write 0 n data true)).Faults Fault.Other :=
    fun n data => onVector_other (write_other 0 n data true) v
  have hone : ∀ p sign append, (applyProduct v p sign append).Faults Fault.Other := by
    intro p sign append
    refine (vector_other v).bind fun _ => (vector_other _).bind fun _ =>
      .ite (faults_throw nofun) <| (faults_perform _).bind fun _ => (hread _).bind fun _ => ?_
    split
    · exact faults_throw nofun
    · exact .ite ((hread v).bind fun _ => hwrite _ _) (hwrite _ _)
  induction products generalizing append with
  | nil => exact faults_pure ()
  | cons p rest ih => exact (hone _ _ _).bind fun _ => ih true

theorem checkLayouts_of_forall {ws : List Descriptor} (h : ∀ w ∈ ws, w.layout = d.layout) :
    checkLayouts d ws = .ok () := by
  induction ws with
  | nil => rfl
  | cons w rest ih =>
    obtain ⟨hw, hrest⟩ := List.forall_mem_cons.mp h
    have hsame : d.checkLayout w = .ok () := by
      simp [Descriptor.checkLayout, Descriptor.sameLayout, hw]
    rw [checkLayouts, hsame]
    exact ih hrest

section Assign

variable (hv : S.vectors[v]? = some d)
include hv

theorem evaluate_other {e : Expr VectorId} (hlayouts : ∀ f, e.formula = .ok f → ∀ w ∈ f.vectors,
      ∀ a, S.vectors[w]? = some a → a.layout = d.layout) :
    (evaluate v e).Ensures .any (fun _ _ _ => True) (fun e _ _ => e.Other) S () := by
  rw [evaluate, Task.ensures_bind, vector_ensures]
  refine ⟨fun target htarget => ?_, fun hnone => by cases hv.symm.trans hnone⟩
  obtain rfl := Option.some_inj.mp (hv.symm.trans htarget)
  refine Task.ensures_ite.mpr ⟨fun _ => other_device _, fun _ => ?_⟩
  rw [Task.ensures_bind, ensures_orFault]
  refine ⟨fun f hf => ?_, fun e _ => other_expr e⟩
  rw [Task.ensures_bind]
  refine (vectorsOf_ensures.and (vectorsOf_other f.vectors S)).imp ?_ fun _ _ _ h => h.2
  rintro ws S' _ ⟨⟨rfl, -, hws⟩, -⟩
  -- the comparison goes well, and nothing behind it is about layouts
  have hchecked : checkLayouts d ws = .ok () := checkLayouts_of_forall fun a ha => by
    obtain ⟨i, hi⟩ := List.getElem?_of_mem ha
    obtain ⟨w, hw, hwa⟩ := getElem?_of_forall₂ hws.flip hi
    exact hlayouts f hf w (List.mem_of_getElem? hw) a hwa
  rw [Task.ensures_bind, ensures_orFault]
  refine ⟨fun _ _ => ?_, fun e he => by cases hchecked.symm.trans he⟩
  exact Faults.ite (faults_pure _) (faults_get.bind fun _ =>
    (onSession_other (faults_get.bind fun _ => KernelCache.kernelsFor_other.zoom) _).bind fun _ =>
      (session_other _).bind fun _ => onVector_other (dispatch_other _ _ _) v) S'

theorem copyFrom_other {w : VectorId}
    (hlayout : ∀ a, S.vectors[w]? = some a → a.layout = d.layout) :
    (copyFrom v w).Ensures .any (fun _ _ _ => True) (fun e _ _ => e.Other) S () := by
  refine Task.ensures_ite.mpr ⟨fun _ => trivial, fun _ => ?_⟩
  rw [Task.ensures_bind, vector_ensures]
  refine ⟨fun target htarget => ?_, fun hnone => by cases hv.symm.trans hnone⟩
  obtain rfl := Option.some_inj.mp (hv.symm.trans htarget)
  rw [Task.ensures_bind, vector_ensures]
  refine ⟨fun a ha => ?_, fun _ => nofun⟩
  have hchecked : d.checkLayout a = .ok () := by
    simp [Descriptor.checkLayout, Descriptor.sameLayout, hlayout a ha]
  rw [Task.ensures_bind, ensures_orFault]
  refine ⟨fun _ _ => ?_, fun e he => by cases hchecked.symm.trans he⟩
  refine Task.ensures_ite.mpr ⟨fun _ => ?_, fun _ => onVector_other (copyShards_other _ _) v S⟩
  refine evaluate_other hv fun f hf u hu b hb => ?_
  cases hf
  obtain rfl : u = w := by simpa [Formula.vectors, Formula.terminals] using hu
  exact hlayout b hb

/-- An assignment raises no fault about layouts if all vectors whose layouts matter have that of the
target. -/
theorem assign_other {source : Operand VectorId}
    (hlayouts : ∀ w, source.Reads w → ∀ a, S.vectors[w]? = some a → a.layout = d.layout) :
    (assign v source).Ensures .any (fun _ _ _ => True) (fun e _ _ => e.Other) S () := by
  -- layouts are compared in two places: where the rest is a vector, and where it is evaluated
  have hcopy : ∀ e w, source.toExpr = .ok e → e.split.1 = some (.vector w) →
      (copyFrom v w).Ensures .any (fun _ _ _ => True) (fun e _ _ => e.Other) S () :=
    fun e w he hrest => copyFrom_other hv fun a ha => hlayouts w
      ⟨e, _, .vector w, he, hrest, rfl, List.mem_singleton_self w⟩ a ha
  unfold assign
  split
  next w => exact hcopy (.vector w) w rfl rfl
  next =>
    rw [Task.ensures_bind, ensures_orFault]
    refine ⟨fun e he => ?_, fun e _ => other_expr e⟩
    have hproducts : ∀ append S', (applyProducts v append e.split.2).Ensures .any
        (fun _ _ _ => True) (fun e _ _ => e.Other) S' () := fun append S' =>
      applyProducts_other v append _ S'
    dsimp only
    split
    · exact hproducts _ S
    next w hrest =>
      rw [Task.ensures_bind]
      exact (hcopy e w he hrest).imp_ok fun _ S' _ _ => hproducts _ S'
    next rest _ hrest =>
      rw [Task.ensures_bind]
      refine (evaluate_other hv fun f hf w hw a ha => ?_).imp_ok fun _ S' _ _ => hproducts _ S'
      exact hlayouts w ⟨e, rest, f, he, hrest, hf, hw⟩ a ha

end Assign

end Store

/-- Ranges are told apart by their ends. -/
theorem boundariesOf_injective {start : Nat} {ns ns' : List Nat}
    (h : boundariesOf start ns = boundariesOf start ns') : ns = ns' := by
  have hhead : ∀ (start : Nat) ns, ∃ rest, boundariesOf start ns = start :: rest := by
    intro start ns
    cases ns <;> exact ⟨_, rfl⟩
  induction ns generalizing start ns' with
  | nil =>
    cases ns' with
    | nil => rfl
    | cons n' rest' => simpa [Descriptor.length_boundariesOf] using congrArg List.length h
  | cons n rest ih =>
    cases ns' with
    | nil => simpa [Descriptor.length_boundariesOf] using congrArg List.length h
    | cons n' rest' =>
      simp only [boundariesOf, List.cons.injEq, true_and] at h
      obtain ⟨tail, htail⟩ := hhead (start + n) rest
      obtain ⟨tail', htail'⟩ := hhead (start + n') rest'
      have hn : start + n = start + n' := (List.cons.inj ((htail.symm.trans h).trans htail')).1
      obtain rfl := Nat.add_left_cancel hn
      rw [ih h]

theorem Descriptor.layout_eq_zip (d : Descriptor) : d.layout = d.devices.zip d.lengths := by
  rw [layout, devices, lengths, List.zip_map']

section Runs

open Store

/-- What gives vectors their boundaries by the strategy of their session, and sets it. -/
inductive Change
  | setStrategy (k : SessionId) (strategy : Option Strategy)
  /-- a vector is made and no boundaries are given -/
  | construct (b : Blueprint) (free : b.partition = none)
  | resizeTo (v : VectorId) (devices : List DeviceId) (extent : Option Extent)
    (host : Option Collection) (access : Access)
  | resizePreserving (v : VectorId) (size : Int)

/-- Runs a change, given how sessions split elements. -/
def Change.run (split : Splitting) : Change → Task Store Unit
  | setStrategy k strategy => Store.onSession k (Session.setStrategy strategy)
  | construct b _ => do let _ ← Store.constructBy split b
  | resizeTo v devices extent host access => Store.resizeToBy split v devices extent host access
  | resizePreserving v size => Store.resizePreservingBy split v size

/-- A run of changes, each of which may break off, on a store and the state of the devices. In
between sessions are opened, and other operations may change events, add kernels and measure
devices. -/
inductive Course {σ : Type} (split : Splitting) (h : Handler σ) (S₀ : Store) (x₀ : σ) :
    Store → σ → Prop
  | start : Course split h S₀ x₀ S₀ x₀
  | opened {S : Store} {x : σ} (config : SessionConfig) (hardware : Hardware)
    (strategy : Option Strategy) : Course split h S₀ x₀ S x →
    Course split h S₀ x₀ { S with sessions := S.sessions.push (.create config hardware strategy) } x
  | other {S S' : Store} {x : σ} (x' : σ) : Course split h S₀ x₀ S x → S.Later S' →
    Course split h S₀ x₀ S' x'
  | change {S S' : Store} {x x' : σ} {r : Except Fault Unit} (c : Change) :
    Course split h S₀ x₀ S x → ((c.run split).runFrom S).run h x = ((r, S'), x') →
    Course split h S₀ x₀ S' x'

/-- A run with the measurements that partition by throughput makes in it: each change is run up to
its request for shares, if there is one, the request is answered with notes, and the change goes
on. -/
inductive NotedCourse {σ : Type} (measure : SessionId → DeviceId → Task Session Scalar)
    (h : Handler σ) (S₀ : Store) (x₀ : σ) : Store → σ → List (SessionId × Measurement) → Prop
  | start : NotedCourse measure h S₀ x₀ S₀ x₀ []
  | opened {S : Store} {x : σ} {notes : List (SessionId × Measurement)} (config : SessionConfig)
    (hardware : Hardware) (strategy : Option Strategy) : NotedCourse measure h S₀ x₀ S x notes →
    NotedCourse measure h S₀ x₀
      { S with sessions := S.sessions.push (.create config hardware strategy) } x notes
  | other {S S' : Store} {x : σ} {notes : List (SessionId × Measurement)} (x' : σ) :
    NotedCourse measure h S₀ x₀ S x notes → S.Later S' → NotedCourse measure h S₀ x₀ S' x' notes
  | change {S S' : Store} {x x' : σ} {notes new : List (SessionId × Measurement)}
    {ahead : Program (Ahead (Except Fault Unit × Store))} {r : Except Fault Unit} (c : Change) :
    NotedCourse measure h S₀ x₀ S x notes →
    Foresees seen (fun perform => c.run perform.splitting) S ahead →
    (ahead >>= Ahead.noting measure).run h x = (((r, S'), new), x') →
    NotedCourse measure h S₀ x₀ S' x' (notes ++ new)

/-- A change asks for shares at most once. -/
theorem Change.foreseen (c : Change) : Foreseen seen fun perform => c.run perform.splitting := by
  cases c with
  | setStrategy k strategy =>
    exact Foreseen.onSession (foreseen_of_within ((Session.setStrategy_within strategy).only k))
  | construct b hfree => exact (foreseen_constructBy b).bind fun _ => within_pure _
  | resizeTo v devices extent host access => exact foreseen_resizeToBy v devices extent host access
  | resizePreserving v size => exact foreseen_resizePreservingBy v size

end Runs

section Courses

open Store

variable {σ : Type} {h : Handler σ} {S₀ S : Store} {x₀ x : σ}
  {measure : SessionId → DeviceId → Task Session Scalar}
  (hmeasure : ∀ k d, (measure k d).Within Session.Later)
include hmeasure

/-- One change, whether it succeeds or breaks off. -/
theorem Change.run_advances (c : Change) :
    (c.run fun k => Session.partitionBy (measure k)).Within Store.Advances := by
  cases c with
  | setStrategy k strategy =>
    intro S
    exact (onSession_within k (Session.setStrategy_within strategy) S).imp
      (fun _ _ _ h => h.advances) fun _ _ _ h => h.advances
  | construct b hfree => exact (constructBy_advances hmeasure hfree).bind fun _ => within_pure _
  | resizeTo v devices extent host access =>
    exact resizeToBy_advances hmeasure v devices extent host access
  | resizePreserving v size => exact resizePreservingBy_advances hmeasure v size

omit hmeasure in
/-- Sessions go on when another one is opened. -/
theorem Store.onward_openSession (S : Store) (s : Session) :
    S.Onward { S with sessions := S.sessions.push s } := by
  intro k s hs
  have hlt := (Array.getElem?_eq_some_iff.mp hs).1
  exact ⟨s, by rw [Array.getElem?_push_lt hlt, ← hs, Array.getElem?_eq_getElem hlt],
    refl_of Session.Later s⟩

/-- Whole runs. -/
theorem Course.advances (hrun : Course (fun k => Session.partitionBy (measure k)) h S₀ x₀ S x) :
    S₀.Advances S := by
  induction hrun with
  | start => exact refl_of Store.Advances S₀
  | @opened S x config hardware strategy _ ih =>
    have honward := S.onward_openSession (.create config hardware strategy)
    exact trans_of Store.Advances ih ⟨honward, fun hS v d hv => (hS v d hv).onward honward⟩
  | other x' _ hlater ih => exact trans_of Store.Advances ih hlater.advances
  | @change S S' x x' r c _ hrun ih =>
    have hall := Change.run_advances hmeasure c S
    apply trans_of Store.Advances ih
    cases r with
    | ok u => exact hall.of_run_ok h.meets_any hrun
    | error e => exact hall.of_run_error h.meets_any hrun

omit hmeasure in
/-- Notes change nothing in a run, and every run has some. -/
theorem course_iff_exists_noted : Course (fun k => Session.partitionBy (measure k)) h S₀ x₀ S x ↔
    ∃ notes, NotedCourse measure h S₀ x₀ S x notes := by
  constructor
  · intro hrun
    induction hrun with
    | start => exact ⟨[], .start⟩
    | opened config hardware strategy _ ih =>
      obtain ⟨notes, hnotes⟩ := ih
      exact ⟨notes, .opened config hardware strategy hnotes⟩
    | other x' _ hlater ih =>
      obtain ⟨notes, hnotes⟩ := ih
      exact ⟨notes, .other x' hnotes hlater⟩
    | @change S S' x x' r c _ hrun ih =>
      obtain ⟨notes, hnotes⟩ := ih
      obtain ⟨ahead, hahead⟩ := c.foreseen S
      rw [← splitting_measuring, hahead.runs_noting, map_eq_pure_bind, Program.run_bind] at hrun
      rcases hnoting : (ahead >>= Ahead.noting measure).run h x with ⟨⟨⟨r', S₁⟩, new⟩, x₁⟩
      rw [hnoting] at hrun
      cases hrun
      exact ⟨notes ++ new, .change c hnotes hahead hnoting⟩
  · rintro ⟨notes, hnotes⟩
    induction hnotes with
    | start => exact .start
    | opened config hardware strategy _ ih => exact .opened config hardware strategy ih
    | other x' _ hlater ih => exact .other x' ih hlater
    | @change S S' x x' notes new ahead r c _ hahead hrun ih =>
      have hchange : ((c.run (Performer.measuring measure).splitting).runFrom S).run h x =
          ((r, S'), x') := by
        rw [hahead.runs_noting, map_eq_pure_bind, Program.run_bind, hrun]
        rfl
      exact .change c ih hchange

/-- What is measured in a run. -/
theorem NotedCourse.noted {notes : List (SessionId × Measurement)}
    (hrun : NotedCourse measure h S₀ x₀ S x notes) : Store.NotedBy (S₀, []) (S, notes) := by
  induction hrun with
  | start => exact refl_of Store.NotedBy _
  | opened config hardware strategy _ ih =>
    exact trans_of Store.NotedBy ih (.of_onward (onward_openSession _ _))
  | other x' _ hlater ih => exact trans_of Store.NotedBy ih (.of_onward hlater.onward)
  | @change S S' x x' notes new ahead r c _ hahead hrun ih =>
    have hnoted : Store.NotedBy (S, notes)
      (((ahead >>= Ahead.noting measure).run h x).1.1.2, notes ++
        ((ahead >>= Ahead.noting measure).run h x).1.2) :=
      Program.Ensures.of_run h.meets_any (hahead.noted hmeasure notes)
    rw [hrun] at hnoted
    exact trans_of Store.NotedBy ih hnoted

/-- Two vectors of a session agree in their layouts if they agree in their devices and their
size. -/
theorem Course.agree (hrun : Course (fun k => Session.partitionBy (measure k)) h S₀ x₀ S x)
    (hempty : S₀.vectors = #[]) {v w : VectorId} {a b : Descriptor} {s : Session}
    (hv : S.vectors[v]? = some a) (hw : S.vectors[w]? = some b) (hsession : b.session = a.session)
    (hs : S.sessions[a.session]? = some s) (hsteady : s.Steady) (hdevices : b.devices = a.devices)
    (hsize : b.size = a.size) : b.layout = a.layout := by
  have hstands := (hrun.advances hmeasure).stands fun v d hv => by simp [hempty] at hv
  obtain ⟨t, ht, hsplits⟩ := hstands v a hv
  obtain rfl := Option.some_inj.mp (hs.symm.trans ht)
  obtain ⟨t, ht, hsplits'⟩ := hstands w b hw
  rw [hsession] at ht
  obtain rfl := Option.some_inj.mp (hs.symm.trans ht)
  -- both have the boundaries that the session stands by
  rw [hdevices, hsize] at hsplits'
  have hboundaries := List.map_injective_iff.mpr (fun _ _ => Int.ofNat.inj)
    (hsplits'.unique hsteady hsplits)
  rw [Descriptor.layout_eq_zip, Descriptor.layout_eq_zip, hdevices,
    boundariesOf_injective hboundaries]

/-- Vectors of one session stay compatible. A strategy in force stays so, and one is in force after
the first use, whatever has become of it. If the strategy is no rule that changes its mind, two
vectors that have got their boundaries from it, of one size and on the same devices, are laid out
alike; and an assignment to such a vector raises no fault about layouts if the vectors of its source
are such vectors. A single device is partitioned alike however devices are measured. And in the
whole run, also where changes have broken off in between, no measurement is made of a device that
its session knows, nor a second one behind one that has succeeded. -/
theorem Course.compatible
    (hrun : Course (fun k => Session.partitionBy (measure k)) h S₀ x₀ S x) :
    (∀ (k : SessionId) s strategy, S₀.sessions[k]? = some s → s.strategy = some strategy →
      ∃ s', S.sessions[k]? = some s' ∧ s'.strategy = some strategy) ∧
    (∀ k n devices s y r s' y',
      ((Session.partitionBy (measure k) n devices).runFrom s).run h y = ((r, s'), y') →
      s'.strategy = some (s.strategy.getD .performance)) ∧
    (S₀.vectors = #[] → ∀ (v : VectorId) d s, S.vectors[v]? = some d →
      S.sessions[d.session]? = some s → s.Steady →
        (∀ (w : VectorId) a, S.vectors[w]? = some a → a.session = d.session →
          a.devices = d.devices → a.size = d.size → d.sameLayout a) ∧
        ∀ source, (∀ w, source.Reads w → ∀ a, S.vectors[w]? = some a →
            a.session = d.session ∧ a.devices = d.devices ∧ a.size = d.size) →
          ∀ e S' x', ((assign v source).runFrom S).run h x = ((.error e, S'), x') →
            e.kind ≠ .layout) ∧
    (∀ k n d other, Session.partitionBy (measure k) n [d] = Session.partitionBy other n [d]) ∧
    (∃ notes, NotedCourse measure h S₀ x₀ S x notes) ∧
    ∀ notes, NotedCourse measure h S₀ x₀ S x notes →
      (∀ a ∈ notes, ∀ s, S₀.sessions[a.1]? = some s → s.weights.lookup a.2.device = none) ∧
      (∀ a ∈ notes, a.2.succeeded → ∃ s w, S.sessions[a.1]? = some s ∧
        s.weights.lookup a.2.device = some w) ∧
      notes.Pairwise fun a b => a.2.succeeded → b.1 = a.1 → b.2.device ≠ a.2.device := by
  refine ⟨fun k s strategy hs hstrategy => ?_, fun k n devices s y r s' y' hpart => ?_,
    fun hempty v d s hv hs hsteady => ?_,
    fun k n d other => Session.partitionBy_single (measure k) other n d,
    course_iff_exists_noted.mp hrun, fun notes hnotes => ?_⟩
  · obtain ⟨s', hs', hlater⟩ := (hrun.advances hmeasure).onward k s hs
    exact ⟨s', hs', hlater.strategy strategy hstrategy⟩
  · have hkept : (Session.partitionBy (measure k) n devices).Ensures .any _ _ s () :=
      Session.partitionBy_kept (hmeasure k)
    cases r with
    | ok part => exact (hkept.of_run_ok h.meets_any hpart).2
    | error e => exact (hkept.of_run_error h.meets_any hpart).2
  · have hagree : ∀ (w : VectorId) a, S.vectors[w]? = some a → a.session = d.session →
        a.devices = d.devices → a.size = d.size → a.layout = d.layout :=
      fun w a hw hsession hdevices hsize =>
        hrun.agree hmeasure hempty hv hw hsession hs hsteady hdevices hsize
    refine ⟨fun w a hw hsession hdevices hsize => ?_, fun source hsame e S' x' hassign => ?_⟩
    · exact decide_eq_true (hagree w a hw hsession hdevices hsize).symm
    · refine (assign_other hv fun w hw a ha => ?_).of_run_error h.meets_any hassign
      obtain ⟨hsession, hdevices, hsize⟩ := hsame w hw a ha
      exact hagree w a ha hsession hdevices hsize
  · obtain ⟨-, new, hnew, hmeasured⟩ := hnotes.noted hmeasure
    obtain rfl : notes = new := hnew
    exact hmeasured

end Courses

namespace Sample

/-- Sessions that split elements equally, and by throughput as soon as they are asked. -/
def sessions : Store :=
  let hardware : Hardware := fun _ => ⟨"sample", .number 0, .processor, 256, fun _ => 256, 1⟩
  ⟨#[], #[.create {} hardware (some .equally), .create {} hardware none]⟩

/-- A store and devices with room for 20 buffers after a change. -/
def changed (c : Change) (s : Store × List Origin) : Store × List Origin :=
  let r := ((c.run fun k => Session.partitionBy (Session.measure k)).runFrom s.1).run (shelf 20) s.2
  (r.1.2, r.2)

theorem course_changed {c : Change} {s : Store × List Origin}
    (h : Course (fun k => Session.partitionBy (Session.measure k)) (shelf 20) sessions [] s.1 s.2) :
    Course (fun k => Session.partitionBy (Session.measure k)) (shelf 20) sessions []
      (changed c s).1 (changed c s).2 := .change c h rfl

/-- One vector is made on two devices and resized, another one is made with its size, and a third
one on a single device in a session that has no strategy so far. -/
def siblings : Store × List Origin :=
  changed (.construct ⟨[0], .count 5, none, .exact .int32, .readWrite, 1, none⟩ rfl) <|
    changed (.construct ⟨[0, 1], .count 40, none, .exact .int32, .readWrite, 0, none⟩ rfl) <|
      changed (.resizePreserving 0 40) <|
        changed (.construct ⟨[0, 1], .count 48, none, .exact .int32, .readWrite, 0, none⟩ rfl)
          (sessions, [])

theorem course_siblings : Course (fun k => Session.partitionBy (Session.measure k)) (shelf 20)
    sessions [] siblings.1 siblings.2 :=
  course_changed (course_changed (course_changed (course_changed .start)))

end Sample

/-- The two vectors of one size have got the same boundaries in two ways, and the session that has
been asked without a strategy has one. -/
theorem Course.compatible_siblings :
    (∃ d a, Sample.siblings.1.vectors[0]? = some d ∧ Sample.siblings.1.vectors[1]? = some a ∧
      d.boundaries = [0, 32, 40] ∧ d.sameLayout a) ∧
    Sample.siblings.1.sessions[1]?.map (·.strategy.map Strategy.name) = some (some "perf") :=
  have hcourse := Course.compatible (fun k d => Session.measure_within k d) Sample.course_siblings
  ⟨⟨_, _, rfl, rfl, rfl, (hcourse.2.2.1 rfl 0 _ _ rfl rfl (fun _ h => nomatch h)).1 1 _ rfl
    rfl rfl rfl⟩, rfl⟩

end DistributedVector
