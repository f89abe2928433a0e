import DistributedVector.Proofs.Later

/-!
# Measured once

Partition by throughput measures a device when its throughput is first needed. A measurement that
has succeeded is never made again, whatever becomes of the request that it was made for: it may
break off at the measurement of a later device. A single device is not measured at all.

To speak of the measurements that are made, they are noted beside the state that they work on.

## Main definitions

* `Measurement`, `noted` — a measurement that has been made, and measuring with notes
* `NotedBy` — what a task may add to the notes and to the throughputs

## Main results

* `forgets_partitionByPerformance` — notes change nothing
* `partitionByPerformance_noted` — one request
-/

namespace DistributedVector

/-- A measurement that has been made. -/
structure Measurement where
  device : DeviceId
  succeeded : Bool

variable {σ τ : Type}

/-- Measures a device and notes it. -/
def noted (measure : DeviceId → Task σ Scalar) (d : DeviceId) :
    Task (List Measurement × σ) Scalar :=
  Task.mk fun s => do
    let (r, t) ← (measure d).runFrom s.2
    return (r, s.1 ++ [⟨d, r.isOk⟩], t)

section Forgetting

variable {α β : Type} {measure : DeviceId → Task σ Scalar}

/-- A task that runs as another one, but for the notes beside the state. -/
def Forgets (t : Task (Weights × List Measurement × σ) α) (u : Task (Weights × σ) α) : Prop :=
  ∀ W log s, (t.runFrom (W, log, s) >>= fun r => pure (r.1, r.2.1, r.2.2.2)) = u.runFrom (W, s)

theorem Forgets.bind {t : Task (Weights × List Measurement × σ) α} {u : Task (Weights × σ) α}
    {f : α → Task (Weights × List Measurement × σ) β} {g : α → Task (Weights × σ) β}
    (h : Forgets t u) (hrest : ∀ a, Forgets (f a) (g a)) : Forgets (t >>= f) (u >>= g) := by
  intro W log s
  rw [Task.runFrom_bind, Task.runFrom_bind, ← h W log s, bind_assoc, bind_assoc]
  -- behind each outcome both go on alike
  apply congrArg (t.runFrom (W, log, s) >>= ·)
  funext r
  obtain ⟨e | a, W', log', s'⟩ := r
  · rfl
  · exact hrest a W' log' s'

theorem forgets_weigh (d : DeviceId) : Forgets (weigh (noted measure) d) (weigh measure d) := by
  intro W log s
  rw [weigh, weigh, Task.runFrom_bind, Task.runFrom_bind, Task.runFrom_get, Task.runFrom_get,
    Program.pure_bind, Program.pure_bind]
  cases hlookup : W.lookup d with
  | some w => simp only [hlookup]; rfl
  | none =>
    simp only [hlookup]
    refine Forgets.bind (fun W log s => ?_) (fun w W log s => rfl) W log s
    simp only [besideWeights, noted, Task.runFrom_zoom, Task.runFrom_mk, bind_assoc, pure_bind]

/-- A request with notes runs as the request. -/
theorem forgets_partitionByPerformance (n : Int) (devices : List DeviceId) :
    Forgets (partitionByPerformance (noted measure) n devices)
      (partitionByPerformance measure n devices) := by
  have hall : ∀ devices, Forgets (weighAll (noted measure) devices) (weighAll measure devices) := by
    intro devices
    induction devices with
    | nil => exact fun _ _ _ => rfl
    | cons d rest ih => exact (forgets_weigh d).bind fun _ => ih.bind fun _ _ _ _ => rfl
  unfold partitionByPerformance
  split
  · exact fun _ _ _ => rfl
  · exact (hall _).bind fun _ _ _ _ => rfl

end Forgetting

/-- A throughput that is known stays known. -/
theorem lookup_of_grown {W W' : Weights} (h : W <+: W') {d : DeviceId} {w : Scalar}
    (hd : W.lookup d = some w) : W'.lookup d = some w := by
  obtain ⟨more, rfl⟩ := h
  rw [List.lookup_append, hd, Option.some_or]

theorem lookup_snoc {W : Weights} {d : DeviceId} (hd : W.lookup d = none) (w : Scalar) :
    (W ++ [(d, w)]).lookup d = some w := by
  rw [List.lookup_append, hd, Option.none_or]
  simp

/-- New measurements are of devices that were not known before, each device that has been measured
with success is known afterwards, and it is not measured a second time. -/
structure NotedBy (p q : Weights × List Measurement × σ) : Prop where
  weights : p.1 <+: q.1
  notes : ∃ new, q.2.1 = p.2.1 ++ new ∧ (∀ a ∈ new, p.1.lookup a.device = none) ∧
    (∀ a ∈ new, a.succeeded → ∃ w, q.1.lookup a.device = some w) ∧
    new.Pairwise fun a b => a.succeeded → b.device ≠ a.device

instance : IsPreorder (Weights × List Measurement × σ) NotedBy where
  refl p := ⟨List.prefix_rfl, [], by simp⟩
  trans p q r := by
    rintro ⟨hweights, new, hnew, hunknown, hknown, honce⟩ ⟨hweights', new', hnew', hunknown',
      hknown', honce'⟩
    refine ⟨hweights.trans hweights', new ++ new', by rw [hnew', hnew, List.append_assoc],
      ?_, ?_, ?_⟩
    · intro a ha
      rcases List.mem_append.mp ha with ha | ha
      · exact hunknown a ha
      · -- what is unknown later has been unknown before
        cases hlookup : p.1.lookup a.device with
        | none => rfl
        | some w => cases (hunknown' a ha).symm.trans (lookup_of_grown hweights hlookup)
    · intro a ha hsucceeded
      rcases List.mem_append.mp ha with ha | ha
      · obtain ⟨w, hw⟩ := hknown a ha hsucceeded
        exact ⟨w, lookup_of_grown hweights' hw⟩
      · exact hknown' a ha hsucceeded
    · refine List.pairwise_append.mpr ⟨honce, honce', fun a ha b hb hsucceeded heq => ?_⟩
      obtain ⟨w, hw⟩ := hknown a ha hsucceeded
      cases (hunknown' b hb).symm.trans (heq ▸ hw)

open DistributedVector.Task

variable (measure : DeviceId → Task σ Scalar)

theorem noted_ensures (d : DeviceId) (s : List Measurement × σ) :
    (noted measure d).Ensures .any (fun _ s' _ => s'.1 = s.1 ++ [⟨d, true⟩])
      (fun _ s' _ => s'.1 = s.1 ++ [⟨d, false⟩]) s () := by
  rw [Task.Ensures, noted, runFrom_mk, Program.ensures_bind]
  refine Program.ensures_any fun r => ?_
  obtain ⟨e | w, t⟩ := r <;> rfl

/-- A device is measured only if it is not known, and known as soon as that has succeeded. -/
theorem weigh_noted (d : DeviceId) : (weigh (noted measure) d).Within NotedBy := by
  intro p
  simp only [weigh, ensures_bind, ensures_get]
  split
  · exact refl_of NotedBy p
  next hunknown =>
    simp only [besideWeights, ensures_bind, ensures_zoom, ensures_modify, Task.ensures_pure]
    refine (noted_ensures measure d p.2).imp ?_ ?_
    · intro w s' _ hs'
      refine ⟨List.prefix_append _ _, [⟨d, true⟩], hs', by simpa using hunknown, ?_, by simp⟩
      intro a ha _
      obtain rfl := List.mem_singleton.mp ha
      exact ⟨w, lookup_snoc hunknown w⟩
    · intro e s' _ hs'
      exact ⟨List.prefix_rfl, [⟨d, false⟩], hs', by simpa using hunknown, by simp, by simp⟩

theorem weighAll_noted (devices : List DeviceId) :
    (weighAll (noted measure) devices).Within NotedBy := by
  induction devices with
  | nil => exact within_pure _
  | cons d rest ih => exact (weigh_noted measure d).bind fun _ => ih.bind fun _ => within_pure _

/-- One request, whether it succeeds or breaks off. -/
theorem partitionByPerformance_noted (n : Int) (devices : List DeviceId) :
    (partitionByPerformance (noted measure) n devices).Within NotedBy := by
  unfold partitionByPerformance
  split
  · exact within_pure _
  · exact (weighAll_noted measure _).bind fun _ => within_orFault _ _

end DistributedVector
