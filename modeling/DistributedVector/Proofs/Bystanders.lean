import DistributedVector.Proofs.Slots

/-!
# Bystanders

Sessions make vectors of their own to measure devices, and launch kernels on them. Vectors that have
been there before stand by: no command is about their buffers, so that their slots go on to say
enough, and no host array is filled. A vector that has just been made has slots that say enough,
too.

## Main definitions

* `Spared` — what may become of devices while the buffers of a time before are left alone
* `Task.Spares` — tasks that leave them alone

## Main results

* `Session.create_spares` — a new vector
* `Session.partition_spares`, `Session.kernelsFor_spares` — what sessions do
-/

namespace DistributedVector

variable {m₀ m₁ m₂ m m' : Allocated} {P P' : List Pending} {guarded : Prop}

/-- Buffers may have been allocated, and the slots of shards with the buffers in `m₀` still say
enough. -/
structure Spared (m₀ : Allocated) (x x' : Allocated × List Pending) : Prop where
  grows : x.1.Grows x'.1
  held : Held x.1 x.2 → Held x'.1 x'.2
  covered : ∀ s : Shard, (∀ b, s.buffer = some b → m₀ b ≠ none) → s.Covered x.2 → s.Covered x'.2

theorem Held.grows (h : Held m P) (hm : m.Grows m') : Held m' P :=
  fun p hp b hb hnone => h p hp b hb (hm.eq_none hnone)

namespace Spared

variable {x x' x'' : Allocated × List Pending}

theorem refl (m₀ : Allocated) (x : Allocated × List Pending) : Spared m₀ x x :=
  ⟨.refl x.1, id, fun _ _ => id⟩

theorem trans (h : Spared m₀ x x') (h' : Spared m₀ x' x'') : Spared m₀ x x'' :=
  ⟨h.grows.trans h'.grows, fun hx => h'.held (h.held hx),
    fun s hs hcovered => h'.covered s hs (h.covered s hs hcovered)⟩

theorem of_advances (hm : m.Grows m') (hP : Advances P P') : Spared m₀ (m, P) (m', P') :=
  ⟨hm, fun h => (h.grows hm).advances hP, fun _ _ h => h.advances hP⟩

/-- A task inside a vector spares the buffers that are none of its own. -/
theorem of_moved {d d' : Descriptor} (h : d.Moved m P d' x) (hnew : ∀ b ∈ d.buffers, m₀ b = none) :
    Spared m₀ (m, P) x :=
  ⟨h.memory ▸ .refl m, fun hm => h.memory.symm ▸ h.held hm,
    fun s hs => h.others s fun b hb hmem => hs b hb (hnew b hmem)⟩

end Spared

namespace Task

variable {τ υ α β : Type}

/-- Wherever the buffers in `m₁` have been allocated, a task leaves those in `m₀` alone and fills no
host array. -/
def Spares (guarded : Prop) (m₀ m₁ : Allocated) (t : Task τ α) : Prop :=
  ∀ s m P, m₁.Grows m → t.Ensures (queueing guarded)
    (fun _ _ x => Spared m₀ (m, P) x ∧ (guarded → Quiet P x.2))
    (fun _ _ x => Spared m₀ (m, P) x) s (m, P)

theorem spares_pure (a : α) : (pure a : Task τ α).Spares guarded m₀ m₁ :=
  fun _ _ P _ => ⟨.refl _ _, fun _ => .refl P⟩

theorem spares_throw (e : Fault) : (throw e : Task τ α).Spares guarded m₀ m₁ :=
  fun _ _ _ _ => .refl _ _

theorem spares_get : (get : Task τ τ).Spares guarded m₀ m₁ :=
  fun _ _ P _ => ⟨.refl _ _, fun _ => .refl P⟩

theorem spares_modify (g : τ → τ) : (modify g : Task τ PUnit).Spares guarded m₀ m₁ :=
  fun _ _ P _ => ⟨.refl _ _, fun _ => .refl P⟩

theorem spares_ofExcept (r : Except Fault α) : (ofExcept r : Task τ α).Spares guarded m₀ m₁ :=
  fun _ _ P _ => ensures_ofExcept.mpr
    ⟨fun _ _ => ⟨.refl _ _, fun _ => .refl P⟩, fun _ _ => .refl _ _⟩

theorem spares_orFault {ε : Type} (f : ε → Fault) (r : Except ε α) :
    (orFault f r : Task τ α).Spares guarded m₀ m₁ := fun _ _ P _ =>
  ensures_orFault.mpr ⟨fun _ _ => ⟨.refl _ _, fun _ => .refl P⟩, fun _ _ => .refl _ _⟩

theorem Spares.ite {p : Prop} [Decidable p] {t u : Task τ α} (ht : t.Spares guarded m₀ m₁)
    (hu : u.Spares guarded m₀ m₁) : (if p then t else u).Spares guarded m₀ m₁ := by
  split
  · exact ht
  · exact hu

/-- What follows something that spares the buffers. -/
theorem Spares.after {t : Task τ α} {s : τ} (ht : t.Spares guarded m₀ m₁) (hm : m₁.Grows m')
    (hspared : Spared m₀ (m, P) (m', P')) (hquiet : guarded → Quiet P P') :
    t.Ensures (queueing guarded) (fun _ _ x => Spared m₀ (m, P) x ∧ (guarded → Quiet P x.2))
      (fun _ _ x => Spared m₀ (m, P) x) s (m', P') :=
  (ht s m' P' hm).imp
    (fun _ _ _ h => ⟨hspared.trans h.1, fun hg => (hquiet hg).trans (h.2 hg)⟩)
    fun _ _ _ h => hspared.trans h

theorem Spares.bind {t : Task τ α} {g : α → Task τ β} (ht : t.Spares guarded m₀ m₁)
    (hg : ∀ a, (g a).Spares guarded m₀ m₁) : (t >>= g).Spares guarded m₀ m₁ := by
  intro s m P hm
  rw [ensures_bind]
  refine (ht s m P hm).imp_ok ?_
  rintro a s' ⟨m', P'⟩ ⟨hspared, hquiet⟩
  exact (hg a).after (hm.trans hspared.grows) hspared hquiet

theorem Spares.zoom {view : υ → τ} {update : τ → υ → υ} {t : Task τ α}
    (ht : t.Spares guarded m₀ m₁) : (t.zoom view update).Spares guarded m₀ m₁ := fun s m P hm =>
  ensures_zoom.mpr (ht (view s) m P hm)

end Task

open DistributedVector.Task

variable {τ α : Type}

/-- Kernels are compiled beside everything else. -/
theorem Program.Ensures.compiling {p : Program α} {good : α → Unit → Prop}
    (h : p.Ensures (.only Call.Compiles) good ()) : p.Ensures (queueing guarded)
      (fun a x => good a () ∧ x.1 = m ∧ Advances P x.2) (m, P) := by
  induction p generalizing P with
  | pure a => exact ⟨h, rfl, .refl P⟩
  | call c next ih =>
    obtain ⟨hc, hnext⟩ := h
    have hallows : (queueing guarded).allows c (m, P) ∧
        ∀ r x, (queueing guarded).effect c (m, P) r x → x.1 = m ∧ Advances P x.2 := by
      cases c with
      | build | report => exact ⟨fun _ => trivial, fun r x hx => ⟨hx.1, hx.2.1⟩⟩
      | _ => exact hc.elim
    refine ⟨hallows.1, fun r x hx => ?_⟩
    obtain ⟨hm, hP⟩ := hallows.2 r x hx
    obtain ⟨m', P'⟩ := x
    obtain rfl : m' = m := hm
    exact (ih r (hnext r () trivial)).imp fun _ _ hpost => ⟨hpost.1, hpost.2.1, hP.trans hpost.2.2⟩

theorem spares_of_compiling {t : Task τ α} (h : ∀ s, t.Ensures (.only Call.Compiles)
    (fun _ _ _ => True) (fun _ _ _ => True) s ()) : t.Spares guarded m₀ m₁ := by
  intro s m P _
  apply (Program.Ensures.compiling (h s)).imp
  rintro ⟨_ | _, s'⟩ ⟨m', P'⟩ ⟨-, hm, hP⟩ <;> obtain rfl : m' = m := hm
  · exact .of_advances (.refl m') hP
  · exact ⟨.of_advances (.refl m') hP, fun _ => .of_subset hP.mem⟩

theorem report_spares (record : LogRecord) : (report record : Task τ Unit).Spares guarded m₀ m₁ :=
  spares_of_compiling fun _ => ensures_perform.mpr ⟨trivial, fun _ _ _ => trivial⟩

theorem clock_spares : (Task.perform (Program.ask .clock) : Task τ Float).Spares guarded m₀ m₁ := by
  intro s m P _
  rw [ensures_perform]
  refine ⟨fun _ => trivial, ?_⟩
  rintro r ⟨m', P'⟩ ⟨hm, hP, -⟩
  obtain rfl : m' = m := hm
  exact ⟨.of_advances (.refl m') hP, fun _ => .of_subset hP.mem⟩

theorem synchronize_spares (device : DeviceId) :
    (issue (Program.ask (.synchronize device)) : Task τ Unit).Spares guarded m₀ m₁ := by
  intro s m P _
  rw [ensures_issue]
  refine ⟨fun _ => trivial, ?_⟩
  rintro (e | ⟨⟩) ⟨m', P'⟩ ⟨hm, hP, -⟩ <;> obtain rfl : m' = m := hm
  · exact ⟨nofun, fun _ _ => .of_advances (.refl m') hP⟩
  · exact ⟨fun _ _ => ⟨.of_advances (.refl m') hP.1, fun _ => .of_subset hP.1.mem⟩, nofun⟩

/-- Devices with queues allocate like all others. -/
theorem allocated_of_queueing (c : Call) (x : Allocated × List Pending) (r : c.Reply)
    (x' : Allocated × List Pending) (h : (queueing guarded).effect c x r x') :
    allocations.effect c x.1 r x'.1 :=
  h.1

/-- Allocating leaves the queues alone. -/
theorem Vector.allocate_advances {type : ElementType} {access : Access}
    {lengths : List (DeviceId × Nat)} {s : τ} :
    (allocate type access lengths : Task τ (List Shard)).Ensures (queueing guarded)
      (fun _ _ x => Advances P x.2) (fun _ _ x => Advances P x.2) s (m, P) := by
  induction lengths generalizing m P with
  | nil => exact .refl P
  | cons head rest ih =>
    obtain ⟨device, n⟩ := head
    have hrest : ∀ {m' P'}, Advances P P' →
      (allocate type access rest : Task τ (List Shard)).Ensures
        (queueing guarded) (fun _ _ x => Advances P x.2) (fun _ _ x => Advances P x.2) s (m', P') :=
      fun ha => ih.imp (fun _ _ _ h => ha.trans h) fun _ _ _ h => ha.trans h
    simp only [allocate, Task.ensures_bind, Task.ensures_ite, Task.ensures_pure]
    refine ⟨fun _ => hrest (.refl P), fun _ => ?_⟩
    rw [map_eq_pure_bind, Task.ensures_bind, ensures_issue]
    refine ⟨fun _ => trivial, fun r x heffect => ?_⟩
    have ha : Advances P x.2 := by
      cases r <;> exact heffect.2.1
    exact ⟨fun _ _ => hrest ha, fun _ _ => ha⟩

/-- A vector that has just been made: its buffers are new, and its slots say enough. -/
structure Vector.New (m : Allocated) (P : List Pending) (d : Descriptor)
    (x : Allocated × List Pending) : Prop where
  owned : d.Owned x.1
  new : ∀ b ∈ d.buffers, m b = none
  covered : Held m P → d.Covered x.2

namespace Session

variable {part perform : Int → List DeviceId → Task Session (List Int)}

theorem boundariesFor_spares (hpart : ∀ n devices, (part n devices).Spares guarded m₀ m₁)
    (r : VectorRequest) : (Vector.boundariesFor part r).Spares guarded m₀ m₁ := by
  unfold Vector.boundariesFor
  split
  · exact (spares_orFault _ _).bind fun _ => spares_pure _
  · exact .ite (spares_pure _) (hpart _ _)

/-- A new vector has buffers of its own, and the others stand by. -/
theorem create_spares (hm₀ : m₀.Grows m₁)
    (hpart : ∀ n devices, (part n devices).Spares guarded m₀ m₁) (r : VectorRequest) (s : Session)
    (hm : m₁.Grows m) :
    (Vector.create part r).Ensures (queueing guarded)
      (fun d _ x => (Spared m₀ (m, P) x ∧ (guarded → Quiet P x.2)) ∧ Vector.New m P d x)
      (fun _ _ x => Spared m₀ (m, P) x) s (m, P) := by
  simp only [Vector.create, ensures_bind, ensures_orFault]
  refine ⟨fun _ _ => ⟨fun type _ => ?_, fun _ _ => .refl _ _⟩, fun _ _ => .refl _ _⟩
  refine (boundariesFor_spares hpart r s m P hm).imp_ok ?_
  rintro boundaries s₂ ⟨m₂, P₂⟩ ⟨hspared₂, hquiet₂⟩
  refine (Vector.allocate_advances.along allocated_of_queueing Vector.allocate_owned).imp ?_
    fun _ _ _ h => hspared₂.trans (.of_advances h.2.2 h.1)
  rintro shards _ ⟨m₃, P₃⟩ ⟨ha, -, hgrows, howned, hnodup, hnew, -⟩
  have hspared₃ : Spared m₀ (m, P) (m₃, P₃) := hspared₂.trans (.of_advances hgrows ha)
  have hquiet₃ : guarded → Quiet P P₃ := fun hg => (hquiet₂ hg).trans (.of_subset ha.mem)
  -- the vector with its buffers, before anything is uploaded
  generalize hfresh : (⟨r.session, type, r.access, shards⟩ : Descriptor) = fresh
  have hbuffers : ∀ b ∈ fresh.buffers, m₂ b = none := hfresh ▸ hnew
  have hmade : Vector.New m P fresh (m₃, P₃) := by
    refine ⟨hfresh ▸ ⟨howned, hnodup⟩, fun b hb => hspared₂.grows.eq_none (hbuffers b hb),
      fun hheld s hs => ?_⟩
    exact .of_new ((hspared₂.held hheld).advances ha) fun b hb =>
      hbuffers b (mem_buffersOf.mpr ⟨s, hs, hb⟩)
  split
  · exact ⟨⟨hspared₃, hquiet₃⟩, hmade⟩
  next data _ =>
    rw [ensures_bind, ensures_runOn]
    refine (Vector.write_keeps 0 r.size data true fresh m₃ P₃ hmade.owned).imp ?_ ?_
    · rintro _ d ⟨m₄, P₄⟩ ⟨hmoved, hquiet⟩
      obtain rfl : m₄ = m₃ := hmoved.memory
      refine ⟨⟨hspared₃.trans (.of_moved hmoved fun b hb => ?_),
        fun hg => (hquiet₃ hg).trans (hquiet hg)⟩, hmade.owned.of_forget hmoved.same, ?_,
        fun hheld => hmoved.covered (hmade.covered hheld)⟩
      · exact (hm₀.trans hm).eq_none (hmade.new b hb)
      · rw [Descriptor.buffers_of_forget hmoved.same]
        exact hmade.new
    · rintro e d x hmoved
      exact hspared₃.trans (.of_moved hmoved fun b hb => (hm₀.trans hm).eq_none (hmade.new b hb))

theorem partitionWith_spares (hperform : ∀ n devices, (perform n devices).Spares guarded m₀ m₁)
    (n : Int) (devices : List DeviceId) : (partitionWith perform n devices).Spares
      guarded m₀ m₁ := by
  have hstrategy : currentStrategy.Spares guarded m₀ m₁ := by
    refine spares_get.bind fun s => ?_
    split
    · exact spares_pure _
    · exact (spares_modify _).bind fun _ => spares_pure _
  have hconsult : (consult perform n devices).Spares guarded m₀ m₁ := by
    refine hstrategy.bind fun strategy => ?_
    cases strategy with
    | equally => exact spares_pure _
    | performance => exact hperform n devices
    | custom rule =>
      exact spares_get.bind fun _ => (spares_modify _).bind fun _ => spares_orFault _ _
  exact hconsult.bind fun _ => (spares_orFault _ _).bind fun _ => (report_spares _).bind fun _ =>
    spares_pure _

theorem kernelsFor_spares (devices : List DeviceId) (f : Formula DataType)
    (result : Option DataType) : (kernelsFor devices f result).Spares guarded m₀ m₁ :=
  spares_of_compiling fun _ =>
    (kernelsFor_kept devices).imp (fun _ _ _ _ => trivial) fun _ _ _ _ => trivial

theorem getOrBuild_spares (devices : List DeviceId) (f : Formula DataType)
    (result : Option DataType) : (getOrBuild devices f result).Spares guarded m₀ m₁ := by
  refine spares_of_compiling fun s => ?_
  simp only [getOrBuild, onCache, ensures_bind, ensures_get, ensures_zoom]
  exact (KernelCache.getOrBuild_kept devices).imp (fun _ _ _ _ => trivial) fun _ _ _ _ => trivial

/-- An addition works on the target, which has been made before the buffers in `m₁`. -/
theorem addOnce_spares {device : DeviceId} {a b c : Descriptor} (howned : a.Owned m₁)
    (hnew : ∀ id ∈ a.buffers, m₀ id = none) : (addOnce device a b c).Spares guarded m₀ m₁ := by
  refine (kernelsFor_spares _ _ _).bind fun kernels => spares_get.bind fun session =>
    Spares.bind (fun s m P hm => ?_) fun _ => synchronize_spares _
  rw [ensures_runOn]
  refine (Vector.dispatch_keeps session kernels (sumOf b c) a m P (howned.mono hm)).imp ?_ ?_
  · exact fun _ _ _ h => ⟨.of_moved h.1 hnew, h.2⟩
  · exact fun _ _ _ h => .of_moved h hnew

theorem profile_spares {run : Task τ Unit} (hrun : run.Spares guarded m₀ m₁)
    (warmup iterations : Int) : (profile run warmup iterations).Spares guarded m₀ m₁ := by
  have hrepeated : ∀ n, (repeated run n).Spares guarded m₀ m₁ := by
    intro n
    induction n with
    | zero => exact spares_pure _
    | succ n ih => exact hrun.bind fun _ => ih
  exact (hrepeated _).bind fun _ => clock_spares.bind fun _ => (hrepeated _).bind fun _ =>
    clock_spares.bind fun _ => spares_ofExcept _

theorem measure_spares (hm₀ : m₀.Grows m₁) (owner : SessionId) (device : DeviceId) :
    (measure owner device).Spares guarded m₀ m₁ := by
  have halone : ∀ {m₁ : Allocated} n devices, (partitionAlone n devices).Spares guarded m₀ m₁ :=
    partitionWith_spares fun _ _ => spares_pure _
  intro s m P hm
  rw [measure, ensures_bind]
  refine (create_spares hm₀ halone _ s hm).imp_ok ?_
  rintro a s' ⟨m₂, P₂⟩ ⟨⟨hspared, hquiet⟩, hmade⟩
  have hm₀' : m₀.Grows m := hm₀.trans hm
  -- from here, the vector that is added to is there
  have hcreate : ∀ r, (Vector.create partitionAlone r).Spares guarded m₀ m₂ := fun r s m P hm =>
    (create_spares (hm₀'.trans hspared.grows) halone r s hm).imp_ok fun _ _ _ h => h.1
  have hrest : ∀ r, (do
      let b ← Vector.create partitionAlone r
      let c ← Vector.create partitionAlone r
      let ms ← profile (addOnce device a b c) 1 1
      let w := throughput ms
      report (.weighed ((← get).hardware device).name w)
      return .float w : Task Session Scalar).Spares guarded m₀ m₂ := fun r =>
    (hcreate r).bind fun b => (hcreate r).bind fun c =>
      (profile_spares (addOnce_spares hmade.owned fun id hid =>
        hm₀'.eq_none (hmade.new id hid)) _ _).bind
        fun _ => spares_get.bind fun _ => (report_spares _).bind fun _ => spares_pure _
  exact (hrest _).after (.refl m₂) hspared hquiet

section Weights

variable {measure : DeviceId → Task Session Scalar}

theorem weigh_spares (hmeasure : ∀ d, (measure d).Spares guarded m₀ m₁) (device : DeviceId) :
    (weigh measure device).Spares guarded m₀ m₁ := by
  refine spares_get.bind fun p => ?_
  split
  · exact spares_pure _
  · exact (hmeasure device).zoom.bind fun _ => (spares_modify _).bind fun _ => spares_pure _

theorem partitionByPerformance_spares (hmeasure : ∀ d, (measure d).Spares guarded m₀ m₁) (n : Int)
    (devices : List DeviceId) : (partitionByPerformance measure n devices).Spares
      guarded m₀ m₁ := by
  have hall : ∀ devices, (weighAll measure devices).Spares guarded m₀ m₁ := by
    intro devices
    induction devices with
    | nil => exact spares_pure _
    | cons d rest ih => exact (weigh_spares hmeasure d).bind fun _ => ih.bind fun _ => spares_pure _
  unfold partitionByPerformance
  split
  · exact spares_pure _
  · exact (hall _).bind fun _ => spares_orFault _ _

end Weights

theorem onWeights_spares {t : Task (Weights × Session) α} (ht : t.Spares guarded m₀ m₁) :
    (onWeights t).Spares guarded m₀ m₁ :=
  ht.zoom

theorem kernel_spares {ν : Type} (typeOf : ν → DataType) (devices : List DeviceId) (e : Expr ν)
    (result : Option String) : (kernel typeOf devices e result).Spares guarded m₀ m₁ :=
  .ite (spares_throw _) ((spares_orFault _ _).bind fun _ => getOrBuild_spares devices _ _)

theorem kernels_spares {ν : Type} (typeOf : ν → DataType) (devices : List DeviceId) (e : Expr ν)
    (result : Option String) : (kernels typeOf devices e result).Spares guarded m₀ m₁ :=
  .ite (spares_pure _) ((spares_orFault _ _).bind fun _ => kernelsFor_spares devices _ _)

theorem setStrategy_spares (strategy : Option Strategy) :
    (setStrategy strategy).Spares guarded m₀ m₁ := by
  refine spares_get.bind fun s => ?_
  split
  · exact spares_modify _
  · exact report_spares _

section Requests

variable (hm₀ : m₀.Grows m₁)
include hm₀

theorem performance_spares (owner : SessionId) (n : Int) (devices : List DeviceId) :
    (performance owner n devices).Spares guarded m₀ m₁ :=
  onWeights_spares (partitionByPerformance_spares (measure_spares hm₀ owner) n devices)

theorem partition_spares (owner : SessionId) (n : Int) (devices : List DeviceId) :
    (partition owner n devices).Spares guarded m₀ m₁ :=
  partitionWith_spares (performance_spares hm₀ owner) n devices

theorem weight_spares (owner : SessionId) (device : DeviceId) :
    (weight owner device).Spares guarded m₀ m₁ :=
  onWeights_spares (weigh_spares (measure_spares hm₀ owner) device)

end Requests

end Session

end DistributedVector
