import DistributedVector.Proofs.Contents
import DistributedVector.Proofs.Ensures
import DistributedVector.Store.Resize
import Mathlib.Order.Defs.Unbundled

/-!
# What tasks leave alone

Whatever the devices reply, transfers, copies and launches change of a vector nothing but the events
noted in it. This holds also where they fail half way, since it holds of each of their steps.

## Main definitions

* `Task.Within` — a task moves its state along a relation only
* `Descriptor.Alike` — vectors that differ in their events at most

## Main results

* `Task.Within.bind`, `Task.Within.zoom` — the rules
* `Vector.write_within`, `Vector.read_within`, `Vector.dispatch_within` — vectors change their
  events
-/

namespace DistributedVector

/-- A program ensures of its value what holds of every value. -/
theorem Program.ensures_any {α : Type} {p : Program α} {good : α → Unit → Prop}
    (h : ∀ a, good a ()) : p.Ensures .any good () := by
  induction p with
  | pure a => exact h a
  | call c next ih => exact ⟨trivial, fun r _ _ => ih r⟩

namespace Task

variable {α β τ υ : Type} {R : τ → τ → Prop}

/-- Whatever is replied, and whether the task fails or not, the relation holds between the state
before and the state after it. -/
def Within (R : τ → τ → Prop) (t : Task τ α) : Prop :=
  ∀ s, t.Ensures .any (fun _ s' _ => R s s') (fun _ s' _ => R s s') s ()

/-- Where a task moves its state along a relation, what it ensures holds beside the relation. -/
theorem Ensures.within {μ : Type} {K : Contract μ} {m : μ} {s : τ} {t : Task τ α}
    {good : α → τ → μ → Prop} {bad : Fault → τ → μ → Prop} (h : t.Ensures K good bad s m)
    (ht : t.Within R) :
    t.Ensures K (fun a s' m' => good a s' m' ∧ R s s')
      (fun e s' m' => bad e s' m' ∧ R s s') s m := by
  -- nothing has to be known of the devices for the relation
  let part : μ → Unit := fun _ => ()
  have hpart : ∀ c m r m', K.effect c m r m' → Contract.any.effect c (part m) r (part m') :=
    fun _ _ _ _ _ => trivial
  exact h.along hpart (ht s)

theorem within_modify {g : τ → τ} (h : ∀ s, R s (g s)) : (modify g : Task τ PUnit).Within R := h

theorem Within.ite {p : Prop} [Decidable p] {t u : Task τ α} (ht : t.Within R) (hu : u.Within R) :
    (if p then t else u).Within R := by
  split
  · exact ht
  · exact hu

/-- A task on a part of the state moves the state as it moves the part. -/
theorem Within.zoom {Q : υ → υ → Prop} {view : τ → υ} {update : υ → τ → τ} {t : Task υ α}
    (ht : t.Within Q) (h : ∀ s part, Q (view s) part → R s (update part s)) :
    (t.zoom view update).Within R := by
  intro s
  rw [ensures_zoom]
  exact (ht (view s)).imp (fun _ part _ hpart => h s part hpart)
    fun _ part _ hpart => h s part hpart

variable [IsPreorder τ R]

theorem within_pure (a : α) : (pure a : Task τ α).Within R := refl_of R

theorem within_throw (e : Fault) : (throw e : Task τ α).Within R := refl_of R

theorem within_get : (get : Task τ τ).Within R := refl_of R

theorem within_perform (p : Program α) : (perform p : Task τ α).Within R := fun s =>
  ensures_perform.mpr (Program.ensures_any fun _ => refl_of R s)

theorem within_ofExcept (r : Except Fault α) : (ofExcept r : Task τ α).Within R := fun s =>
  ensures_ofExcept.mpr ⟨fun _ _ => refl_of R s, fun _ _ => refl_of R s⟩

/-- A sequence moves the state as its parts do. -/
theorem Within.bind {t : Task τ α} {g : α → Task τ β} (ht : t.Within R) (hg : ∀ a, (g a).Within R) :
    (t >>= g).Within R := by
  intro s
  rw [ensures_bind]
  refine (ht s).imp_ok ?_
  intro a s' _ hs
  exact (hg a s').imp (fun _ _ _ h => trans_of R hs h) fun _ _ _ h => trans_of R hs h

/-- A task on a state of its own leaves the other one alone. -/
theorem within_runOn (part : υ) (t : Task υ α) : (t.runOn part : Task τ (α × υ)).Within R := by
  intro s
  rw [ensures_runOn]
  exact Program.ensures_any fun r => by obtain ⟨_ | _, _⟩ := r <;> exact refl_of R s

end Task

section

variable {α ε τ : Type} {R : τ → τ → Prop} [IsPreorder τ R]

open DistributedVector.Task

theorem within_issue (p : Program (Except DeviceFault α)) :
    (issue p : Task τ α).Within R := fun s =>
  ensures_issue.mpr (Program.ensures_any fun _ => ⟨fun _ _ => refl_of R s, fun _ _ => refl_of R s⟩)

theorem within_orFault (g : ε → Fault) (r : Except ε α) : (orFault g r : Task τ α).Within R :=
  fun s => ensures_orFault.mpr ⟨fun _ _ => refl_of R s, fun _ _ => refl_of R s⟩

theorem within_report (record : LogRecord) : (report record : Task τ Unit).Within R :=
  within_perform _

end

/-- Vectors that differ in their events at most. -/
def Descriptor.Alike (d d' : Descriptor) : Prop := d'.forget = d.forget

instance : IsPreorder Descriptor Descriptor.Alike where
  refl _ := rfl
  trans _ _ _ h h' := Eq.trans h' h

namespace Vector

open DistributedVector.Task

variable {τ : Type} {R : τ → τ → Prop} [IsPreorder τ R]

/-! ## Transfers -/

/-- Notes of events do not count. -/
theorem within_setEvent (shard : Nat) (e : Event) :
    (modify (·.setEvent shard e) : Task Descriptor PUnit).Within Descriptor.Alike :=
  within_modify fun d => d.forget_setEvent shard e

theorem startWrites_within (data : Array Scalar) (pieces : List Piece) :
    (startWrites data pieces).Within Descriptor.Alike := by
  induction pieces with
  | nil => exact within_pure ()
  | cons p rest ih => exact (within_issue _).bind fun e => (within_setEvent _ e).bind fun _ => ih

theorem startReads_within (view : HostView) (pieces : List Piece) :
    (startReads view pieces).Within Descriptor.Alike := by
  induction pieces with
  | nil => exact within_pure ()
  | cons p rest ih => exact (within_issue _).bind fun e => (within_setEvent _ e).bind fun _ => ih

theorem waitFor_within (pieces : List Piece) : (waitFor pieces).Within Descriptor.Alike := by
  induction pieces with
  | nil => exact within_pure ()
  | cons p rest ih =>
    refine within_get.bind fun d => ?_
    split
    · exact (within_issue _).bind fun _ => ih
    · exact ih

theorem checkRange_within (offset count : Int) :
    (checkRange offset count).Within Descriptor.Alike :=
  within_get.bind fun _ => within_orFault _ _

theorem write_within (offset count : Int) (data : HostData) (blocking : Bool) :
    (write offset count data blocking).Within Descriptor.Alike := by
  refine .ite (within_pure _) ((checkRange_within _ _).bind fun _ => within_get.bind fun d =>
    (within_orFault _ _).bind fun values => .ite (within_throw _) ?_)
  exact (startWrites_within _ _).bind fun _ => .ite (waitFor_within _) (within_pure _)

theorem newArray_within (type : ElementType) (count : Nat) :
    (newArray type count : Task τ HostView).Within R :=
  (within_perform _).bind fun _ => within_pure _

theorem target_within (type : ElementType) (count : Int) (goal : ReadTarget) :
    (target type count goal).Within Descriptor.Alike := by
  cases goal with
  | fresh => exact .ite (within_throw _) (newArray_within _ _)
  | array view => exact .ite (within_pure _) (within_throw _)
  | unsuitable => exact within_throw _

theorem read_within (offset count : Int) (goal : ReadTarget) (blocking : Bool) :
    (read offset count goal blocking).Within Descriptor.Alike := by
  refine within_get.bind fun d => (target_within _ _ _).bind fun view => .ite (within_pure _)
    ((checkRange_within _ _).bind fun _ => .ite (within_throw _) (within_get.bind fun d => ?_))
  exact (startReads_within _ _).bind fun _ =>
    .ite ((waitFor_within _).bind fun _ => within_pure _) (within_pure _)

theorem allocate_within (type : ElementType) (access : Access) (lengths : List (DeviceId × Nat)) :
    (allocate type access lengths : Task τ (List Shard)).Within R := by
  induction lengths with
  | nil => exact within_pure _
  | cons head rest ih =>
    obtain ⟨device, n⟩ := head
    have hbuffer : ∀ p : Program (Except DeviceFault BufferId),
        (some <$> issue p : Task τ (Option BufferId)).Within R := fun p => by
      rw [map_eq_pure_bind]
      exact (within_issue p).bind fun _ => within_pure _
    rw [allocate]
    exact .ite (ih.bind fun _ => within_pure _)
      ((hbuffer _).bind fun _ => ih.bind fun _ => within_pure _)

theorem contents_within (view : HostView) : (contents view : Task τ HostData).Within R :=
  (within_perform _).bind fun _ => within_pure _

theorem readRange_within (offset count : Int) : (readRange offset count).Within Descriptor.Alike :=
  (read_within _ _ _ _).bind fun _ => contents_within _

theorem readAll_within : readAll.Within Descriptor.Alike :=
  within_get.bind fun _ => readRange_within _ _

theorem drain_within (devices : List DeviceId) : (drain devices : Task τ Unit).Within R := by
  induction devices with
  | nil => exact within_pure ()
  | cons d rest ih => exact (within_issue _).bind fun _ => ih

theorem synchronize_within : synchronize.Within Descriptor.Alike :=
  within_get.bind fun _ => drain_within _

theorem shard_within {R : Descriptor → Descriptor → Prop} [IsPreorder Descriptor R] (index : Nat) :
    (shard index).Within R := by
  refine within_get.bind fun d => ?_
  split
  · exact within_pure _
  · exact within_throw _

theorem readElement_within {R : Descriptor → Descriptor → Prop}
    [IsPreorder Descriptor R] (index : Nat)
    (position : Int) : (readElement index position).Within R :=
  (shard_within _).bind fun _ => within_get.bind fun _ => (newArray_within _ _).bind fun _ =>
    (within_issue _).bind fun _ => (within_issue _).bind fun _ => (contents_within _).bind fun _ =>
      within_pure _

theorem writeElements_within (index : Nat) (position : Int) (data : HostData) :
    (writeElements index position data).Within Descriptor.Alike :=
  (shard_within _).bind fun _ => (within_issue _).bind fun _ => within_issue _

/-! ## Copies and launches -/

theorem copyShards_within (index : Nat) (pairs : List (Shard × Shard)) :
    (copyShards index pairs).Within Descriptor.Alike := by
  induction pairs generalizing index with
  | nil => exact within_pure ()
  | cons p rest ih =>
    rw [copyShards]
    exact .ite (ih _) ((within_issue _).bind fun e => (within_setEvent _ e).bind fun _ => ih _)

theorem copyPieces_within (pieces : List KeptPiece) :
    (copyPieces pieces).Within Descriptor.Alike := by
  induction pieces with
  | nil => exact within_pure ()
  | cons p rest ih => exact (within_issue _).bind fun e => (within_setEvent _ e).bind fun _ => ih

theorem waitAll_within (shards : List Shard) : (waitAll shards : Task τ Unit).Within R := by
  induction shards with
  | nil => exact within_pure ()
  | cons s rest ih =>
    rw [waitAll]
    dsimp only
    split
    · exact (within_issue _).bind fun _ => ih
    · exact ih

variable (session : Session) (kernels : List (Key × CompiledKernel))
  (leaves : List (Terminal Descriptor))

theorem launch_within (index : Nat) (s : Shard) :
    (launch session kernels leaves index s).Within Descriptor.Alike := by
  rw [launch]
  split
  · exact within_throw _
  · exact (within_ofExcept _).bind fun _ => within_get.bind fun _ =>
      (within_ofExcept _).bind fun _ =>
      (within_issue _).bind fun e => within_setEvent _ e

theorem launchFrom_within (index : Nat) (shards : List Shard) :
    (launchFrom session kernels leaves index shards).Within Descriptor.Alike := by
  induction shards generalizing index with
  | nil => exact within_pure ()
  | cons s rest ih =>
    rw [launchFrom]
    exact .ite (ih _) ((launch_within session kernels leaves index s).bind fun _ => ih _)

theorem dispatch_within (f : Formula Descriptor) :
    (dispatch session kernels f).Within Descriptor.Alike :=
  within_get.bind fun _ => launchFrom_within session kernels _ _ _

end Vector

end DistributedVector
