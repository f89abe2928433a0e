import DistributedVector.Proofs.Measurement
import DistributedVector.Proofs.Representation

/-!
# Vectors of one session stay compatible

A session splits elements by the strategy in force. The first strategy that is set or used stays in
force, and a throughput that is known stays known, so what a session has answered for a number of
elements on some devices it would answer again, unless the strategy is a rule that changes its mind.
Hence any two of its vectors of one size on the same devices are laid out alike, in whichever way
they have got their boundaries from the session, and expressions over them are never refused for
their layouts.

How throughput is measured is left open. A measurement may work on the session, and may ask it for
partitions over a single device, but leaves its strategy and the known throughputs as they are.

## Main definitions

* `Session.partitionBy` — the partitions of a session, given how it measures throughput
* `Session.Splits`, `Session.Steady` — the boundaries that a session stands by
* `Change`, `Course` — what gives vectors of sessions their boundaries, and runs of it

## Main results

* `Session.Splits.unique` — a session stands by no more than one answer
* `Course.agree` — vectors of a session agree in their layouts
* `Course.compatible` — all that holds of runs
-/

namespace DistributedVector

open DistributedVector.Task

namespace Session

variable {s s' : Session} {n : Int} {devices : List DeviceId} {part part' : List Int}

/-- The partitions of a session, given how it measures throughput. -/
def partitionBy (measure : DeviceId → Task Session Scalar) :
    Int → List DeviceId → Task Session (List Int) :=
  partitionWith fun n devices => onWeights (partitionByPerformance measure n devices)

/-- The boundaries that a session stands by: those of the strategy in force, with the throughputs
that it has measured. -/
inductive Splits (s : Session) : Int → List DeviceId → List Int → Prop
  | empty (devices : List DeviceId) : Splits s 0 devices (List.replicate (devices.length + 1) 0)
  | equally {n : Int} (devices : List DeviceId) : n ≠ 0 → s.strategy = some .equally →
    Splits s n devices (partitionEqually n devices.length)
  | alone {n : Int} (device : DeviceId) : n ≠ 0 → s.strategy = some .performance →
    Splits s n [device] [0, n]
  | weighted {n : Int} {devices : List DeviceId} {weights : List Scalar} {part : List Int} : n ≠ 0 →
    s.strategy = some .performance → devices.length ≠ 1 →
    List.Forall₂ (fun d w => s.weights.lookup d = some w) devices weights →
    partitionByWeights n weights partitionAlignment = .ok part → Splits s n devices part
  | ruled {n : Int} {devices : List DeviceId} {part : List Int} (asked : Nat)
    {rule : Nat → Int → List DeviceId → Except PartitionFault (List Int)} : n ≠ 0 →
    s.strategy = some (.custom rule) → rule asked n devices = .ok part → Splits s n devices part

/-- A rule in force answers the same whenever it is asked. -/
def Steady (s : Session) : Prop :=
  ∀ rule, s.strategy = some (.custom rule) → ∀ i j, rule i = rule j

/-- A session stands by its answers. -/
theorem Splits.later (h : s.Splits n devices part) (hlater : s.Later s') :
    s'.Splits n devices part := by
  cases h with
  | empty => exact .empty devices
  | equally _ hn hstrategy => exact .equally devices hn (hlater.strategy _ hstrategy)
  | alone device hn hstrategy => exact .alone device hn (hlater.strategy _ hstrategy)
  | weighted hn hstrategy hmany hweights hpart =>
    exact .weighted hn (hlater.strategy _ hstrategy) hmany
      (hweights.imp fun _ _ h => lookup_of_grown hlater.weights h) hpart
  | ruled asked hn hstrategy hpart => exact .ruled asked hn (hlater.strategy _ hstrategy) hpart

theorem eq_of_forall₂_lookup {W : Weights} {ws ws' : List Scalar}
    (h : List.Forall₂ (fun d w => W.lookup d = some w) devices ws)
    (h' : List.Forall₂ (fun d w => W.lookup d = some w) devices ws') : ws = ws' := by
  induction h generalizing ws' with
  | nil => cases h'; rfl
  | cons hd _ ih =>
    obtain _ | ⟨hd', hrest'⟩ := h'
    rw [Option.some_inj.mp (hd.symm.trans hd'), ih hrest']

/-- A session stands by no more than one answer. -/
theorem Splits.unique (hs : s.Steady) (h : s.Splits n devices part)
    (h' : s.Splits n devices part') : part = part' := by
  -- the strategy in force leaves one way to get an answer
  cases h with
  | empty =>
    cases h' with
    | empty => rfl
    | equally _ hn | alone _ hn | weighted hn | ruled _ hn => exact absurd rfl hn
  | equally _ hn hstrategy =>
    cases h' with
    | empty => exact absurd rfl hn
    | equally => rfl
    | alone _ _ hstrategy' | weighted _ hstrategy' | ruled _ _ hstrategy' =>
      cases hstrategy.symm.trans hstrategy'
  | alone device hn hstrategy =>
    cases h' with
    | empty => exact absurd rfl hn
    | alone => rfl
    | weighted _ _ hmany => exact absurd rfl hmany
    | equally _ _ hstrategy' | ruled _ _ hstrategy' => cases hstrategy.symm.trans hstrategy'
  | weighted hn hstrategy hmany hweights hpart =>
    cases h' with
    | empty => exact absurd rfl hn
    | alone => exact absurd rfl hmany
    | weighted _ _ _ hweights' hpart' =>
      rw [eq_of_forall₂_lookup hweights hweights', hpart'] at hpart
      exact (Except.ok.inj hpart).symm
    | equally _ _ hstrategy' | ruled _ _ hstrategy' => cases hstrategy.symm.trans hstrategy'
  | ruled asked hn hstrategy hpart =>
    cases h' with
    | empty => exact absurd rfl hn
    | ruled asked' _ hstrategy' hpart' =>
      cases hstrategy.symm.trans hstrategy'
      rw [hs _ hstrategy asked asked', hpart'] at hpart
      exact (Except.ok.inj hpart).symm
    | equally _ _ hstrategy' | alone _ _ hstrategy' | weighted _ hstrategy' =>
      cases hstrategy.symm.trans hstrategy'

section Measuring

variable {measure : DeviceId → Task Session Scalar} (hmeasure : ∀ d, (measure d).Within Later)

theorem weigh_known (d : DeviceId) (p : Weights × Session) : (weigh measure d).Ensures .any
    (fun w q _ => q.1.lookup d = some w) (fun _ _ _ => True) p () := by
  simp only [weigh, besideWeights, Task.ensures_bind, Task.ensures_get]
  split
  next w hw => exact hw
  next hnone =>
    simp only [Task.ensures_bind, ensures_zoom, Task.ensures_modify, Task.ensures_pure]
    exact (Task.ensures_true _).imp_ok fun w _ _ _ => lookup_snoc hnone w

include hmeasure

/-- The throughputs that are used are the known ones. -/
theorem weighAll_known (devices : List DeviceId) (p : Weights × Session) :
    (weighAll measure devices).Ensures .any
      (fun ws q _ => List.Forall₂ (fun d w => q.1.lookup d = some w) devices ws ∧ LaterBeside p q)
      (fun _ _ _ => True) p () := by
  induction devices generalizing p with
  | nil => exact ⟨.nil, refl_of LaterBeside p⟩
  | cons d rest ih =>
    simp only [weighAll, Task.ensures_bind, Task.ensures_pure]
    refine ((weigh_known d p).and (weigh_within hmeasure d p)).imp ?_ fun _ _ _ h => h.1
    rintro w q _ ⟨hw, hq⟩
    refine (ih q).imp_ok ?_
    rintro ws r _ ⟨hws, hr⟩
    exact ⟨.cons (lookup_of_grown hr.1 hw) hws, trans_of LaterBeside hq hr⟩

theorem partitionByPerformance_splits (hn : n ≠ 0) (hs : s.strategy = some .performance) :
    (onWeights (partitionByPerformance measure n devices)).Ensures .any
      (fun part s' _ => s'.Splits n devices part) (fun _ _ _ => True) s () := by
  rw [onWeights, ensures_zoom]
  unfold partitionByPerformance
  split
  next d => exact .alone d hn hs
  next hmany =>
    have hlength : devices.length ≠ 1 := fun hone => by
      obtain ⟨d, rfl⟩ := List.length_eq_one_iff.mp hone
      exact hmany d rfl
    simp only [Task.ensures_bind, ensures_orFault]
    refine (weighAll_known hmeasure devices _).imp_ok ?_
    rintro ws q _ ⟨hws, -, hlater⟩
    exact ⟨fun part hpart => .weighted hn (hlater.strategy _ hs) hlength hws hpart,
      fun _ _ => trivial⟩

theorem partitionBy_kept : (partitionBy measure n devices).Ensures .any
    (fun _ s' _ => s.Later s' ∧ s'.strategy = some (s.strategy.getD .performance))
    (fun _ s' _ => s.Later s' ∧ s'.strategy = some (s.strategy.getD .performance)) s () :=
  partitionWith_kept fun n devices =>
    onWeights_within (partitionByPerformance_within hmeasure n devices)

/-- A strategy that answers has split the elements. -/
theorem consult_splits (hn : n ≠ 0) :
    (consult (fun n devices => onWeights (partitionByPerformance measure n devices)) n
      devices).Ensures
      .any (fun part s' _ => s'.Splits n devices part) (fun _ _ _ => True) s () := by
  rw [consult, Task.ensures_bind]
  refine currentStrategy_ensures.imp ?_ fun _ _ _ h => h.elim
  rintro strategy s₁ _ ⟨hstrategy, -, -⟩
  cases strategy with
  | equally => exact .equally devices hn hstrategy
  | performance => exact partitionByPerformance_splits hmeasure hn hstrategy
  | custom rule =>
    simp only [Task.ensures_bind, Task.ensures_get, Task.ensures_modify, ensures_orFault]
    exact ⟨fun part hpart => .ruled s₁.asked hn hstrategy hpart, fun _ _ => trivial⟩

/-- What a session answers it stands by. -/
theorem partitionBy_splits (hn : n ≠ 0) : (partitionBy measure n devices).Ensures .any
    (fun part s' _ => s'.Splits n devices part ∧ validatePartition part n devices.length = .ok ())
    (fun _ _ _ => True) s () := by
  simp only [partitionBy, partitionWith, Task.ensures_bind, ensures_orFault]
  refine (consult_splits hmeasure hn).imp_ok
    fun part s₁ _ hsplits => ⟨fun _ hvalid => ?_, fun _ _ => trivial⟩
  rw [report, ensures_perform]
  exact Program.ensures_any fun _ => ⟨hsplits, hvalid⟩

end Measuring

end Session

namespace Vector

variable {s : Session} {r : VectorRequest}

theorem allocate_lengths {σ : Type} {s : σ} {type : ElementType} {access : Access}
    {lengths : List (DeviceId × Nat)} : (allocate type access lengths : Task σ (List Shard)).Ensures
      .any (fun shards s' _ => s' = s ∧ shards.map (fun s => (s.device, s.length)) = lengths)
      (fun _ _ _ => True) s () := by
  induction lengths with
  | nil => exact ⟨rfl, rfl⟩
  | cons head rest ih =>
    obtain ⟨device, n⟩ := head
    have hrest : ∀ buffer, (do
        return ⟨device, n, buffer, none⟩ :: (← allocate type access rest) :
          Task σ (List Shard)).Ensures .any
          (fun shards s' _ => s' = s ∧ shards.map (fun s => (s.device, s.length)) =
            (device, n) :: rest)
          (fun _ _ _ => True) s () := fun buffer => by
      simp only [Task.ensures_bind, Task.ensures_pure]
      exact ih.imp_ok fun _ _ _ h => ⟨h.1, by rw [List.map_cons, h.2]⟩
    simp only [allocate, Task.ensures_bind, Task.ensures_ite, Task.ensures_pure, map_eq_pure_bind,
      ensures_issue]
    exact ⟨fun _ => (Task.ensures_bind.mp (hrest none)), fun _ => Program.ensures_any fun _ =>
      ⟨fun b _ => Task.ensures_bind.mp (hrest (some b)), fun _ _ => trivial⟩⟩

/-- A new vector has the boundaries that have been found for it. -/
theorem create_follows {partition : Int → List DeviceId → Task Session (List Int)}
    {found : List Int → Session → Prop}
    (h : (boundariesFor partition r).Ensures .any
      (fun part s' _ => validatePartition part r.size r.devices.length = .ok () ∧ found part s')
      (fun _ _ _ => True) s ()) :
    (create partition r).Ensures .any
      (fun d s' _ => d.session = r.session ∧ d.devices = r.devices ∧ (d.size : Int) = r.size ∧
        found (d.boundaries.map Int.ofNat) s') (fun _ _ _ => True) s () := by
  simp only [create, Task.ensures_bind, ensures_orFault]
  refine ⟨fun _ _ => ⟨fun type _ => ?_, fun _ _ => trivial⟩, fun _ _ => trivial⟩
  refine h.imp_ok ?_
  rintro part s₁ _ ⟨hvalid, hfound⟩
  obtain ⟨hlength, htotal⟩ := lengthsOf_of_validate hvalid
  refine allocate_lengths.imp_ok ?_
  rintro shards s₂ _ ⟨rfl, hlengths⟩
  have hsizes : shards.map (·.length) = lengthsOf part := by
    have := congrArg (List.map Prod.snd) hlengths
    rwa [List.map_map, List.map_snd_zip (by omega)] at this
  have hdevices : shards.map (·.device) = r.devices := by
    have := congrArg (List.map Prod.fst) hlengths
    rwa [List.map_map, List.map_fst_zip (by omega)] at this
  -- the vector before anything is uploaded, and any that differs from it in its events
  generalize hfresh : (⟨r.session, type, r.access, shards⟩ : Descriptor) = fresh
  have hdone : ∀ d : Descriptor, fresh.Alike d → d.session = r.session ∧ d.devices = r.devices ∧
      (d.size : Int) = r.size ∧ found (d.boundaries.map Int.ofNat) s₂ := by
    intro d hd
    rw [Descriptor.session_of_forget hd, Descriptor.devices_of_forget hd,
      Descriptor.size_of_forget hd, Descriptor.boundaries_of_forget hd, ← hfresh]
    refine ⟨rfl, hdevices, ?_, ?_⟩
    · rw [← htotal, ← hsizes]
      rfl
    · rwa [Descriptor.boundaries, Descriptor.lengths, hsizes, boundariesOf_of_validate hvalid]
  split
  · exact hdone fresh rfl
  · simp only [Task.ensures_bind, Task.ensures_runOn, Task.ensures_pure]
    exact (write_within 0 r.size _ true fresh).imp (fun _ d _ h => hdone d h) fun _ _ _ _ => trivial

/-- The session stands by the boundaries of a new vector. -/
theorem create_splits {measure : DeviceId → Task Session Scalar}
    (hmeasure : ∀ d, (measure d).Within Session.Later) (hfree : r.partition = none) :
    (create (Session.partitionBy measure) r).Ensures .any
      (fun d s' _ => d.session = r.session ∧
        s'.Splits d.size d.devices (d.boundaries.map Int.ofNat))
      (fun _ _ _ => True) s () := by
  have hboundaries : (boundariesFor (Session.partitionBy measure) r).Ensures .any
      (fun part s' _ => validatePartition part r.size r.devices.length = .ok () ∧
        s'.Splits r.size r.devices part) (fun _ _ _ => True) s () := by
    rw [boundariesFor, hfree]
    simp only [Task.ensures_ite, Task.ensures_pure]
    refine ⟨fun hzero => ?_, fun hn => ?_⟩
    · rw [hzero]
      exact ⟨validatePartition_replicate_zero _, .empty r.devices⟩
    · exact (Session.partitionBy_splits hmeasure hn).imp_ok fun _ _ _ h => ⟨h.2, h.1⟩
  refine (create_follows hboundaries).imp_ok ?_
  rintro d s' _ ⟨hsession, hdevices, hsize, hsplits⟩
  exact ⟨hsession, by rwa [hsize, hdevices]⟩

end Vector

namespace Store

variable {S S' S'' : Store} {d d' : Descriptor} {v : VectorId}

/-- The session of a vector stands by its boundaries. -/
def Backs (S : Store) (d : Descriptor) : Prop :=
  ∃ s, S.sessions[d.session]? = some s ∧ s.Splits d.size d.devices (d.boundaries.map Int.ofNat)

/-- The sessions stand by the boundaries of their vectors. -/
def Stands (S : Store) : Prop := ∀ (v : VectorId) d, S.vectors[v]? = some d → S.Backs d

/-- The sessions are still there, and go on. -/
def Onward (S S' : Store) : Prop :=
  ∀ (k : SessionId) s, S.sessions[k]? = some s → ∃ s', S'.sessions[k]? = some s' ∧ s.Later s'

instance : IsPreorder Store Onward where
  refl _ _ s hs := ⟨s, hs, refl_of Session.Later s⟩
  trans _ _ _ h h' k s hs := by
    obtain ⟨s', hs', hlater⟩ := h k s hs
    obtain ⟨s'', hs'', hlater'⟩ := h' k s' hs'
    exact ⟨s'', hs'', trans_of Session.Later hlater hlater'⟩

theorem Later.onward (h : S.Later S') : S.Onward S' := by
  intro k s hs
  have hlt : k < S'.sessions.size := h.count ▸ (Array.getElem?_eq_some_iff.mp hs).1
  obtain ⟨t, ht, hlater⟩ := h.sessions k _ (Array.getElem?_eq_getElem hlt)
  obtain rfl := Option.some_inj.mp (hs.symm.trans ht)
  exact ⟨_, Array.getElem?_eq_getElem hlt, hlater⟩

theorem Backs.onward (h : S.Backs d) (hS : S.Onward S') : S'.Backs d := by
  obtain ⟨s, hs, hsplits⟩ := h
  obtain ⟨s', hs', hlater⟩ := hS _ s hs
  exact ⟨s', hs', hsplits.later hlater⟩

theorem Backs.of_alike (h : S.Backs d) (hsame : d.Alike d') : S.Backs d' := by
  rw [Backs, Descriptor.session_of_forget hsame, Descriptor.size_of_forget hsame,
    Descriptor.devices_of_forget hsame, Descriptor.boundaries_of_forget hsame]
  exact h

theorem Stands.later (hS : S.Stands) (h : S.Later S') : S'.Stands := by
  intro v d' hv
  obtain ⟨d, hd, hsame⟩ := exists_of_outline h.outline hv
  exact ((hS v d hd).of_alike hsame).onward h.onward

/-- A vector by whose boundaries its session stands is added, or takes the place of another one. -/
theorem Stands.insert (hS : S.Stands) (hd : S.Backs d)
    (hvectors : ∀ (w : VectorId) e, S'.vectors[w]? = some e → e = d ∨ S.vectors[w]? = some e)
    (hsessions : S'.sessions = S.sessions) : S'.Stands := by
  intro w e hw
  rw [Backs, hsessions]
  rcases hvectors w e hw with rfl | hw
  · exact hd
  · exact hS w e hw

/-- The sessions go on, and stand by the boundaries of the vectors if they have done so. -/
structure Advances (S S' : Store) : Prop where
  onward : S.Onward S'
  stands : S.Stands → S'.Stands

instance : IsPreorder Store Advances where
  refl S := ⟨refl_of Onward S, id⟩
  trans _ _ _ h h' := ⟨trans_of Onward h.onward h'.onward, h'.stands ∘ h.stands⟩

theorem Later.advances (h : S.Later S') : S.Advances S' := ⟨h.onward, fun hS => hS.later h⟩

theorem eq_or_getElem?_put {w : VectorId} {e : Descriptor}
    (h : (S.vectors.setIfInBounds v d)[w]? = some e) : e = d ∨ S.vectors[w]? = some e := by
  rw [Array.getElem?_setIfInBounds] at h
  split at h
  · split at h
    · exact .inl (Option.some_inj.mp h).symm
    · cases h
  · exact .inr h

theorem eq_or_getElem?_push {w : VectorId} {e : Descriptor}
    (h : (S.vectors.push d)[w]? = some e) : e = d ∨ S.vectors[w]? = some e := by
  rw [Array.getElem?_push] at h
  split at h
  · exact .inl (Option.some_inj.mp h).symm
  · exact .inr h

section Changes

variable {measure : SessionId → DeviceId → Task Session Scalar}
  (hmeasure : ∀ k d, (measure k d).Within Session.Later)
include hmeasure

/-- The session stands by the boundaries of a vector that is made without any being given. -/
theorem makeBy_stands {b : Blueprint} (hfree : b.partition = none) :
    (makeBy (fun k => Session.partitionBy (measure k)) b).Ensures .any
      (fun d S' _ => S.Later S' ∧ S'.Backs d) (fun _ S' _ => S.Later S') S () := by
  simp only [makeBy, Task.ensures_bind, Task.ensures_ite]
  refine ⟨fun _ => refl_of Later S, fun _ => ?_⟩
  refine (resolveExtent_within (R := Same) b S).imp ?_ fun _ _ _ h => h.later
  rintro ⟨n, host⟩ S₁ _ hsame
  rw [onSession_ensures]
  refine ⟨fun s hs => ?_, fun _ => hsame.later⟩
  have hcreate := (Session.create_within (fun n devices => Session.onWeights_within
    (Session.partitionByPerformance_within (hmeasure b.session) n devices))
      ⟨b.devices, n, host, b.type, b.access, b.session, b.partition⟩ s).and
    (Vector.create_splits (s := s) (r := ⟨b.devices, n, host, b.type, b.access,
      b.session, b.partition⟩) (hmeasure b.session) hfree)
  refine hcreate.imp ?_ fun _ s' _ h => trans_of Later hsame.later (later_putSession hs h.1)
  rintro d s' _ ⟨hlater, hsession, hsplits⟩
  have hlt := (Array.getElem?_eq_some_iff.mp hs).1
  exact ⟨trans_of Later hsame.later (later_putSession hs hlater), s',
    by rw [hsession, Array.getElem?_setIfInBounds_self_of_lt hlt], hsplits⟩

theorem constructBy_advances {b : Blueprint} (hfree : b.partition = none) :
    (constructBy (fun k => Session.partitionBy (measure k)) b).Within Advances := by
  intro S
  simp only [constructBy, Task.ensures_bind, Task.ensures_get, Task.ensures_modify,
    Task.ensures_pure]
  refine (makeBy_stands hmeasure hfree).imp ?_ fun _ _ _ h => h.advances
  rintro d S' _ ⟨hlater, hd⟩
  exact ⟨hlater.onward, fun hS => (hS.later hlater).insert hd (fun _ _ => eq_or_getElem?_push) rfl⟩

theorem resizeToBy_advances (v : VectorId) (devices : List DeviceId) (extent : Option Extent)
    (host : Option Collection) (access : Access) :
    (resizeToBy (fun k => Session.partitionBy (measure k)) v devices extent host access).Within
      Advances := by
  intro S
  cases extent with
  | none => exact refl_of Advances S
  | some extent =>
    simp only [resizeToBy, setVector, Task.ensures_bind, vector_ensures, Task.ensures_modify]
    refine ⟨fun d _ => ?_, fun _ => refl_of Advances S⟩
    refine (makeBy_stands hmeasure rfl).imp ?_ fun _ _ _ h => h.advances
    rintro fresh S' _ ⟨hlater, hfresh⟩
    exact ⟨hlater.onward,
      fun hS => (hS.later hlater).insert hfresh (fun _ _ => eq_or_getElem?_put) rfl⟩

theorem resizePreservingBy_advances (v : VectorId) (size : Int) :
    (resizePreservingBy (fun k => Session.partitionBy (measure k)) v size).Within Advances := by
  intro S
  simp only [resizePreservingBy, setVector, Task.ensures_bind, vector_ensures, Task.ensures_runOn,
    Task.ensures_modify]
  refine ⟨fun d _ => ?_, fun _ => refl_of Advances S⟩
  refine (makeBy_stands hmeasure rfl).imp ?_ fun _ _ _ h => h.advances
  rintro fresh S₁ _ ⟨hlater, hfresh⟩
  -- the sessions do not take part in moving the elements
  have hstop : ∀ {S₂ : Store}, S₁.Same S₂ → S.Later S₂ := fun h => trans_of Later hlater h.later
  refine (Vector.copyPieces_within _ fresh).imp ?_ fun _ _ _ _ => hlater.advances
  intro _ fresh₁ _ hsame₁
  refine (Vector.waitAll_within fresh₁.shards (R := Same) S₁).imp ?_ fun _ _ _ h =>
    (hstop h).advances
  intro _ S₂ _ hsame₂
  refine (moveRuns_alike (R := Same) v fresh₁ _).imp ?_
    fun _ _ _ h => (hstop (trans_of Same hsame₂ h)).advances
  rintro fresh₂ S₃ _ ⟨hsame₃, hsame₄⟩
  have hsame := trans_of Same hsame₂ hsame₄
  have hbacks :=
    (hfresh.of_alike (trans_of Descriptor.Alike hsame₁ hsame₃)).onward hsame.later.onward
  exact ⟨(hstop hsame).onward,
    fun hS => (hS.later (hstop hsame)).insert hbacks (fun _ _ => eq_or_getElem?_put) rfl⟩

end Changes

end Store

end DistributedVector
