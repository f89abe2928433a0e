import DistributedVector.Proofs.Splitting

/-!
# Requests for shares

A vector that is made without boundaries is split once, and so a change of a store needs partition
by throughput at most once. Up to there it runs alike whichever way throughput is measured, and what
it does behind depends on the shares only. So a change can be run up to its request, the request can
be answered in another way, and the change goes on from the answer.

With the request answered as it is, but with notes, the measurements of a change are noted: no
device is measured that its session knows, and a device is known as soon as a measurement of it has
succeeded.

## Main definitions

* `Performer` — partition by throughput, for each session
* `ShareRequest`, `Ahead` — a request for shares, and how far a program gets without shares
* `Foresees`, `Foreseen` — runs up to a request
* `Ahead.noting` — the rest of a run, with notes
* `Store.NotedBy` — what a change may add to the notes and to the throughputs

## Main results

* `Foreseen.onSession`, `foreseen_makeBy` — a vector is split once
* `Ahead.noting_forget` — notes change nothing
* `Foresees.noted` — the measurements of a run
-/

namespace DistributedVector

open DistributedVector.Task

/-- Partition by throughput, for each session. -/
abbrev Performer := SessionId → Int → List DeviceId → Task Session (List Int)

/-- How sessions split elements, given partition by throughput. -/
def Performer.splitting (perform : Performer) : Splitting :=
  fun k => Session.partitionWith (perform k)

/-- Partition by throughput, given how sessions measure it. -/
def Performer.measuring (measure : SessionId → DeviceId → Task Session Scalar) : Performer :=
  fun k n devices => Session.onWeights (partitionByPerformance (measure k) n devices)

theorem splitting_measuring (measure : SessionId → DeviceId → Task Session Scalar) :
    (Performer.measuring measure).splitting = fun k => Session.partitionBy (measure k) := rfl

/-- Nothing is measured for a single device. -/
theorem Session.partitionBy_single (measure other : DeviceId → Task Session Scalar) (n : Int)
    (d : DeviceId) : partitionBy measure n [d] = partitionBy other n [d] := by
  have hconsult : ∀ m : DeviceId → Task Session Scalar,
      consult (fun n devices => onWeights (partitionByPerformance m n devices)) n [d] =
        consult (fun _ _ => onWeights (return [0, n])) n [d] := by
    intro m
    unfold consult
    apply congrArg (currentStrategy >>= ·)
    funext strategy
    cases strategy <;> rfl
  unfold partitionBy partitionWith
  rw [hconsult, hconsult]

/-- A request for shares of elements, and the session as it is then. -/
structure ShareRequest where
  session : SessionId
  elements : Int
  devices : List DeviceId
  state : Session

/-- How far a program gets without partition by throughput: to its end, or to a request for shares,
with what it does with the answer. -/
inductive Ahead (β : Type)
  | done (r : β)
  | asks (q : ShareRequest) (next : Except Fault (List Int) × Session → Program β)

namespace Ahead

variable {β γ : Type}

/-- Goes on with the shares of a performer. -/
def resume (perform : Performer) : Ahead β → Program β
  | done r => pure r
  | asks q next => (perform q.session q.elements q.devices).runFrom q.state >>= next

/-- Goes on behind the end. -/
def followedBy (rest : β → Program γ) : Ahead β → Program (Ahead γ)
  | done r => do return done (← rest r)
  | asks q next => return asks q fun p => next p >>= rest

theorem resume_followedBy (perform : Performer) (rest : β → Program γ) (o : Ahead β) :
    o.followedBy rest >>= resume perform = o.resume perform >>= rest := by
  cases o with
  | done r => simp [followedBy, resume]
  | asks q next => simp [followedBy, resume]

end Ahead

section Foreseeing

variable {α β τ : Type} {view : SessionId → τ → Option Session}

/-- The sessions that are seen in a state are those that have been seen before, and go on. -/
def Continues (view : SessionId → τ → Option Session) (t t' : τ) : Prop :=
  ∀ k, Option.Rel Session.Later (view k t) (view k t')

instance (view : SessionId → τ → Option Session) : IsPreorder τ (Continues view) where
  refl t k := by
    cases view k t with
    | none => exact .none
    | some s => exact .some (refl_of Session.Later s)
  trans t t' t'' h h' k := by
    have hk := h k
    have hk' := h' k
    generalize view k t = a at hk
    generalize view k t' = b at hk hk'
    cases hk with
    | none => exact hk'
    | some hlater =>
      generalize view k t'' = c at hk'
      cases hk' with
      | some hlater' => exact .some (trans_of Session.Later hlater hlater')

theorem Continues.forward {t t' : τ} (h : Continues view t t') {k : SessionId} {s : Session}
    (hs : view k t = some s) : ∃ s', view k t' = some s' ∧ s.Later s' := by
  have hk := h k
  rw [hs] at hk
  generalize view k t' = b at hk ⊢
  cases hk with
  | some hlater => exact ⟨_, rfl, hlater⟩

theorem Continues.backward {t t' : τ} (h : Continues view t t') {k : SessionId} {s' : Session}
    (hs' : view k t' = some s') : ∃ s, view k t = some s ∧ s.Later s' := by
  have hk := h k
  rw [hs'] at hk
  generalize view k t = a at hk ⊢
  cases hk with
  | some hlater => exact ⟨_, rfl, hlater⟩

/-- Sessions go on up to a request, and from the answer on. -/
def Ahead.Keeps (view : SessionId → τ → Option Session) (t : τ) : Ahead (α × τ) → Prop
  | done r => Continues view t r.2
  | asks q next => (∃ s, view q.session t = some s ∧ s.Later q.state) ∧
      ∀ r s, q.state.Later s → (next (r, s)).Ensures .any
        (fun z _ => Continues view t z.2 ∧ ∃ s', view q.session z.2 = some s' ∧ s.Later s') ()

theorem Ahead.Keeps.of_continues {t t' : τ} (h : Continues view t t') {o : Ahead (α × τ)}
    (ho : o.Keeps view t') : o.Keeps view t := by
  cases o with
  | done r => exact trans_of (Continues view) h ho
  | asks q next =>
    obtain ⟨⟨s', hs', hlater'⟩, hnext⟩ := ho
    obtain ⟨s, hs, hlater⟩ := h.backward hs'
    exact ⟨⟨s, hs, trans_of Session.Later hlater hlater'⟩, fun r p hp => (hnext r p hp).imp
      fun _ _ hz => ⟨trans_of (Continues view) h hz.1, hz.2⟩⟩

/-- A task runs up to a request for shares, or to its end, alike for all performers. -/
structure Foresees (view : SessionId → τ → Option Session) (t : Performer → Task τ α) (s : τ)
    (ahead : Program (Ahead (Except Fault α × τ))) : Prop where
  runs : ∀ perform, (t perform).runFrom s = ahead >>= Ahead.resume perform
  keeps : ahead.Ensures .any (fun o _ => o.Keeps view s) ()

/-- A task asks for shares at most once, wherever it starts. -/
def Foreseen (view : SessionId → τ → Option Session) (t : Performer → Task τ α) : Prop :=
  ∀ s, ∃ ahead, Foresees view t s ahead

/-- Outcomes instead of two postconditions. -/
theorem Task.Within.outcome {R : τ → τ → Prop} {t : Task τ α} (ht : t.Within R) (s : τ) :
    (t.runFrom s).Ensures .any (fun r _ => R s r.2) () := by
  apply Program.Ensures.imp (ht s)
  rintro ⟨_ | _, _⟩ _ h <;> exact h

/-- A task that has no use for shares is run to its end. -/
theorem foreseen_of_within {t : Task τ α} (ht : t.Within (Continues view)) :
    Foreseen view fun _ => t := fun s => by
  refine ⟨t.runFrom s >>= fun r => pure (.done r), fun perform => ?_, ?_⟩
  · simp [Ahead.resume]
  · rw [Program.ensures_bind]
    exact ht.outcome s

/-- What follows on the outcome of a task: a fault is passed on. -/
def Task.follow {γ : Type} (next : α → τ → γ) (stop : Except Fault β × τ → γ)
    (r : Except Fault α × τ) : γ :=
  match r.1 with
  | .ok a => next a r.2
  | .error e => stop (.error e, r.2)

/-- Nothing is asked behind a request. -/
theorem Foreseen.bind {t : Performer → Task τ α} (ht : Foreseen view t) {f : α → Task τ β}
    (hf : ∀ a, (f a).Within (Continues view)) :
    Foreseen view fun perform => t perform >>= f := fun s => by
  obtain ⟨ahead, hruns, hkeeps⟩ := ht s
  let rest : Except Fault α × τ → Program (Except Fault β × τ) :=
    follow (fun a => (f a).runFrom) pure
  have hrest : ∀ r, (rest r).Ensures .any (fun z _ => Continues view r.2 z.2) () := by
    rintro ⟨e | a, t⟩
    · exact refl_of (Continues view) t
    · exact (hf a).outcome t
  refine ⟨ahead >>= Ahead.followedBy rest, fun perform => ?_, ?_⟩
  · rw [runFrom_bind, hruns, bind_assoc, bind_assoc]
    exact congrArg (ahead >>= ·) (funext fun o => (o.resume_followedBy perform rest).symm)
  · rw [Program.ensures_bind]
    refine hkeeps.imp fun o _ ho => ?_
    cases o with
    | done r =>
      rw [Ahead.followedBy, Program.ensures_bind]
      exact (hrest r).imp fun _ _ hz => trans_of (Continues view) ho hz
    | asks q next =>
      refine ⟨ho.1, fun r p hp => ?_⟩
      rw [Program.ensures_bind]
      refine (ho.2 r p hp).imp fun z _ hz => (hrest z).imp fun z' _ hz' => ?_
      obtain ⟨hcontinues, p', hp', hlater⟩ := hz
      obtain ⟨p'', hp'', hlater'⟩ := hz'.forward hp'
      exact ⟨trans_of (Continues view) hcontinues hz', p'', hp'',
        trans_of Session.Later hlater hlater'⟩

/-- Nothing is asked before a request. -/
theorem foreseen_bind {t : Task τ α} (ht : t.Within (Continues view)) {f : α → Performer → Task τ β}
    (hf : ∀ a, Foreseen view (f a)) :
    Foreseen view fun perform => t >>= fun a => f a perform := fun s => by
  choose ahead hahead using hf
  refine ⟨t.runFrom s >>= follow ahead fun r => pure (.done r), fun perform => ?_, ?_⟩
  · rw [runFrom_bind, bind_assoc]
    apply congrArg (t.runFrom s >>= ·)
    funext r
    obtain ⟨e | a, s'⟩ := r
    · rfl
    · exact (hahead a s').runs perform
  · rw [Program.ensures_bind]
    refine (ht.outcome s).imp ?_
    rintro ⟨e | a, s'⟩ _ hs
    · exact hs
    · exact (hahead a s').keeps.imp fun _ _ ho => ho.of_continues hs

end Foreseeing

/-! ## Sessions -/

/-- The session of a number, seen in its own state. -/
def Session.only (k : SessionId) : SessionId → Session → Option Session :=
  fun j s => if j = k then some s else none

theorem Session.only_eq_some {k j : SessionId} {s s' : Session} :
    Session.only k j s = some s' ↔ j = k ∧ s = s' := by
  simp [only]

theorem Session.continues_only {k : SessionId} {s s' : Session} (h : s.Later s') :
    Continues (Session.only k) s s' := by
  intro j
  unfold only
  split
  · exact .some h
  · exact .none

theorem Session.later_of_continues {k : SessionId} {s s' : Session}
    (h : Continues (Session.only k) s s') : s.Later s' := by
  obtain ⟨t, ht, hlater⟩ := h.forward (only_eq_some.mpr ⟨rfl, rfl⟩)
  obtain ⟨-, rfl⟩ := only_eq_some.mp ht
  exact hlater

/-- What keeps a session keeps it where it is seen. -/
theorem Task.Within.only {α : Type} {t : Task Session α} (ht : t.Within Session.Later)
    (k : SessionId) : t.Within (Continues (Session.only k)) := fun s =>
  (ht s).imp (fun _ _ _ h => Session.continues_only h) fun _ _ _ h => Session.continues_only h

/-- The request itself. -/
theorem foreseen_perform (k : SessionId) (n : Int) (devices : List DeviceId) :
    Foreseen (Session.only k) fun perform => perform k n devices := fun s => by
  refine ⟨pure (.asks ⟨k, n, devices, s⟩ pure), fun perform => by simp [Ahead.resume], ?_, ?_⟩
  · exact ⟨s, Session.only_eq_some.mpr ⟨rfl, rfl⟩, refl_of Session.Later s⟩
  · intro r s' hs'
    exact ⟨Session.continues_only hs', s', Session.only_eq_some.mpr ⟨rfl, rfl⟩,
      refl_of Session.Later s'⟩

section Making

variable (k : SessionId)

theorem foreseen_partitionWith (n : Int) (devices : List DeviceId) :
    Foreseen (Session.only k) fun perform => Session.partitionWith (perform k) n devices := by
  have hcurrent : Session.currentStrategy.Within Session.Later := fun s =>
    Session.currentStrategy_ensures.imp (fun _ _ _ h => h.2.2) fun _ _ _ h => h.elim
  refine Foreseen.bind (foreseen_bind (hcurrent.only k) fun strategy => ?_) fun part =>
    (within_orFault _ _).bind fun _ => (within_report _).bind fun _ => within_pure _
  cases strategy with
  | equally => exact foreseen_of_within (within_pure _)
  | performance => exact foreseen_perform k n devices
  | custom rule =>
    refine foreseen_of_within ?_
    exact within_get.bind fun s => Within.bind
      (Within.only (within_modify fun _ => .with_asked _) k) fun _ => within_orFault _ _

theorem foreseen_create (r : VectorRequest) : Foreseen (Session.only k) fun perform =>
    Vector.create (Session.partitionWith (perform k)) r := by
  have hboundaries : Foreseen (Session.only k) fun perform =>
      Vector.boundariesFor (Session.partitionWith (perform k)) r := by
    unfold Vector.boundariesFor
    split
    · exact foreseen_of_within ((within_orFault _ _).bind fun _ => within_pure _)
    · split
      · exact foreseen_of_within (within_pure _)
      · exact foreseen_partitionWith k _ _
  refine foreseen_bind (within_orFault _ _) fun _ => foreseen_bind (within_orFault _ _) fun type =>
    hboundaries.bind fun part => (Vector.allocate_within _ _ _).bind fun shards => ?_
  dsimp only
  split
  · exact within_pure _
  · exact (within_runOn _ _).bind fun _ => within_pure _

end Making

/-! ## Stores -/

namespace Store

/-- The sessions of a store. -/
def seen (k : SessionId) (S : Store) : Option Session := S.sessions[k]?

instance : Eventless (Continues seen) := ⟨fun S _ _ _ _ _ => refl_of (Continues seen) S⟩

theorem Later.continues {S S' : Store} (h : S.Later S') : Continues seen S S' := by
  intro k
  have hk := h.sessions k
  cases hs' : S'.sessions[k]? with
  | none =>
    have hs : S.sessions[k]? = none := by
      rw [Array.getElem?_eq_none_iff, ← h.count, ← Array.getElem?_eq_none_iff, hs']
    simp only [seen, hs, hs']
    exact .none
  | some s' =>
    obtain ⟨s, hs, hlater⟩ := hk s' hs'
    simp only [seen, hs, hs']
    exact .some hlater

end Store

/-- What is done with the state at the end, and with the states behind an answer. -/
def Ahead.map {β γ : Type} (f : β → γ) (o : Ahead β) : Ahead γ :=
  match o with
  | done r => done (f r)
  | asks q next => asks q fun p => f <$> next p

theorem Store.seen_put {S : Store} {k : SessionId} {s s' : Session} (hs : S.sessions[k]? = some s) :
    seen k { S with sessions := S.sessions.setIfInBounds k s' } = some s' :=
  Array.getElem?_setIfInBounds_self_of_lt (Array.getElem?_eq_some_iff.mp hs).1

/-- A task on a session asks in a store for what it asks for in the session. -/
theorem Foreseen.onSession {α : Type} {k : SessionId} {t : Performer → Task Session α}
    (ht : Foreseen (Session.only k) t) :
    Foreseen Store.seen fun perform => Store.onSession k (t perform) := fun S => by
  let put : Except Fault α × Session → Except Fault α × Store := fun r =>
    (r.1, { S with sessions := S.sessions.setIfInBounds k r.2 })
  rcases hs : S.sessions[k]? with _ | s
  · refine ⟨pure (.done (.error (.vector .unknownSession), S)), fun perform => ?_,
      refl_of (Continues _) S⟩
    simp [Store.onSession, Store.session, runFrom_bind, hs, Ahead.resume]
  obtain ⟨ahead, hruns, hkeeps⟩ := ht s
  have hput : ∀ r : Except Fault α × Session, s.Later r.2 → Continues Store.seen S (put r).2 :=
    fun r hr => (Store.later_putSession hs hr).continues
  refine ⟨Ahead.map put <$> ahead, fun perform => ?_, ?_⟩
  · have hsession : (Store.session k).runFrom S = pure (.ok s, S) := by
      simp [Store.session, runFrom_bind, hs]
    rw [Store.onSession, runFrom_bind_of_ok hsession, runFrom_zoom, hruns,
      bind_assoc, bind_map_left]
    apply congrArg (ahead >>= ·)
    funext o
    cases o with
    | done r => rfl
    | asks q next => simp [Ahead.map, Ahead.resume, put]
  · rw [map_eq_pure_bind, Program.ensures_bind]
    refine hkeeps.imp fun o _ ho => ?_
    cases o with
    | done r => exact hput r (Session.later_of_continues ho)
    | asks q next =>
      obtain ⟨⟨s', hs', hlater⟩, hnext⟩ := ho
      obtain ⟨hk, rfl⟩ := Session.only_eq_some.mp hs'
      refine ⟨⟨s, by rw [hk]; exact hs, hlater⟩, fun r p hp => ?_⟩
      dsimp only
      rw [map_eq_pure_bind, Program.ensures_bind]
      refine (hnext r p hp).imp fun z _ hz => ?_
      obtain ⟨hcontinues, p', hp', hlater'⟩ := hz
      obtain ⟨-, rfl⟩ := Session.only_eq_some.mp hp'
      exact ⟨hput z (Session.later_of_continues hcontinues),
        z.2, by rw [hk]; exact Store.seen_put hs, hlater'⟩

section Changes

open Store

theorem foreseen_makeBy (b : Blueprint) :
    Foreseen seen fun perform => makeBy perform.splitting b := by
  unfold makeBy
  split
  · refine foreseen_bind (within_throw _) fun _ => ?_
    exact foreseen_bind (resolveExtent_within b) fun _ => (foreseen_create b.session _).onSession
  · exact foreseen_bind (resolveExtent_within b) fun _ => (foreseen_create b.session _).onSession

theorem foreseen_constructBy (b : Blueprint) :
    Foreseen seen fun perform => constructBy perform.splitting b :=
  (foreseen_makeBy b).bind fun _ => within_get.bind fun _ =>
    Within.bind (within_modify fun S => refl_of (Continues seen) S) fun _ => within_pure _

theorem setVector_within (v : VectorId) (d : Descriptor) :
    (setVector v d).Within (Continues seen) :=
  within_modify fun S => refl_of (Continues seen) S

theorem foreseen_resizeToBy (v : VectorId) (devices : List DeviceId) (extent : Option Extent)
    (host : Option Collection) (access : Access) :
    Foreseen seen fun perform => resizeToBy perform.splitting v devices extent host access := by
  cases extent with
  | none => exact foreseen_of_within (within_throw _)
  | some extent =>
    exact foreseen_bind (vector_within v) fun d => (foreseen_makeBy _).bind (setVector_within v)

theorem foreseen_resizePreservingBy (v : VectorId) (size : Int) :
    Foreseen seen fun perform => resizePreservingBy perform.splitting v size := by
  have hmove : ∀ fresh runs, (moveRuns v fresh runs).Within (Continues seen) := fun fresh runs S =>
    (moveRuns_alike v fresh runs).imp (fun _ _ _ h => h.2) fun _ _ _ h => h
  exact foreseen_bind (vector_within v) fun d => (foreseen_makeBy _).bind fun fresh =>
    (within_runOn _ _).bind fun p => (Vector.waitAll_within _).bind fun _ =>
      (hmove _ _).bind (setVector_within v)

end Changes

/-! ## Notes -/

/-- Answers a request as performers do that measure, with notes. -/
def ShareRequest.noting (measure : SessionId → DeviceId → Task Session Scalar) (q : ShareRequest) :
    Program ((Except Fault (List Int) × Session) × List Measurement) := do
  let (r, weights, notes, s) ← (partitionByPerformance (noted (measure q.session)) q.elements
    q.devices).runFrom (q.state.weights, [], q.state)
  return ((r, { s with weights }), notes)

/-- Goes on with the shares of performers that measure, and tells which devices they have
measured. -/
def Ahead.noting {β : Type} (measure : SessionId → DeviceId → Task Session Scalar) :
    Ahead β → Program (β × List (SessionId × Measurement))
  | done r => return (r, [])
  | asks q next => do
    let (p, notes) ← q.noting measure
    return (← next p, notes.map (q.session, ·))

section Notes

variable {measure : SessionId → DeviceId → Task Session Scalar}

/-- A request that is answered with notes is answered as without. -/
theorem ShareRequest.noting_forget (q : ShareRequest) : (·.1) <$> q.noting measure =
    (Performer.measuring measure q.session q.elements q.devices).runFrom q.state := by
  have hforget : Forgets
      (partitionByPerformance (noted (measure q.session)) q.elements q.devices)
      (partitionByPerformance (measure q.session) q.elements q.devices) :=
    forgets_partitionByPerformance _ _
  rw [Performer.measuring, Session.onWeights, runFrom_zoom,
    ← hforget q.state.weights [] q.state, noting, map_bind, bind_assoc]
  rfl

/-- Notes change nothing in a run. -/
theorem Ahead.noting_forget {β : Type} (o : Ahead β) :
    (·.1) <$> o.noting measure = o.resume (Performer.measuring measure) := by
  cases o with
  | done r => rfl
  | asks q next =>
    rw [noting, resume, ← q.noting_forget, map_bind, bind_map_left]
    simp

/-- A run with notes is the run. -/
theorem Foresees.runs_noting {α τ : Type} {view : SessionId → τ → Option Session}
    {t : Performer → Task τ α} {s : τ} {ahead : Program (Ahead (Except Fault α × τ))}
    (h : Foresees view t s ahead) : (t (Performer.measuring measure)).runFrom s =
      (·.1) <$> (ahead >>= Ahead.noting measure) := by
  rw [h.runs, map_bind]
  exact congrArg (ahead >>= ·) (funext fun o => o.noting_forget.symm)

end Notes

/-- Behind a beginning of a run, its measurements: none of a device that its session has known
before, and none again behind one that has succeeded, after which the session knows the device. -/
structure Store.NotedBy (p q : Store × List (SessionId × Measurement)) : Prop where
  onward : p.1.Onward q.1
  notes : ∃ new, q.2 = p.2 ++ new ∧
    (∀ a ∈ new, ∀ s, p.1.sessions[a.1]? = some s → s.weights.lookup a.2.device = none) ∧
    (∀ a ∈ new, a.2.succeeded → ∃ s w, q.1.sessions[a.1]? = some s ∧
      s.weights.lookup a.2.device = some w) ∧
    new.Pairwise fun a b => a.2.succeeded → b.1 = a.1 → b.2.device ≠ a.2.device

theorem Continues.onward {S S' : Store} (h : Continues Store.seen S S') : S.Onward S' :=
  fun _ _ => h.forward

/-- A device that a later session does not know has not been known before. -/
theorem Session.Later.lookup_eq_none {s s' : Session} (h : s.Later s') {d : DeviceId}
    (hd : s'.weights.lookup d = none) : s.weights.lookup d = none := by
  cases hs : s.weights.lookup d with
  | none => rfl
  | some w => cases hd.symm.trans (lookup_of_grown h.weights hs)

namespace Store.NotedBy

variable {S S' : Store} {log : List (SessionId × Measurement)}

theorem of_onward (h : S.Onward S') : NotedBy (S, log) (S', log) :=
  ⟨h, [], (List.append_nil log).symm, nofun, nofun, .nil⟩

instance : IsPreorder (Store × List (SessionId × Measurement)) NotedBy where
  refl p := of_onward (refl_of Onward p.1)
  trans p q r := by
    rintro ⟨honward, new, hnew, hunknown, hknown, honce⟩ ⟨honward', new', hnew', hunknown',
      hknown', honce'⟩
    refine ⟨trans_of Onward honward honward', new ++ new', by rw [hnew', hnew, List.append_assoc],
      ?_, ?_, List.pairwise_append.mpr ⟨honce, honce', ?_⟩⟩
    · intro a ha s hs
      rcases List.mem_append.mp ha with ha | ha
      · exact hunknown a ha s hs
      · obtain ⟨s', hs', hlater⟩ := honward _ s hs
        exact hlater.lookup_eq_none (hunknown' a ha s' hs')
    · intro a ha hsucceeded
      rcases List.mem_append.mp ha with ha | ha
      · obtain ⟨s, w, hs, hw⟩ := hknown a ha hsucceeded
        obtain ⟨s', hs', hlater⟩ := honward' _ s hs
        exact ⟨s', w, hs', lookup_of_grown hlater.weights hw⟩
      · exact hknown' a ha hsucceeded
    · intro a ha b hb hsucceeded hsession hdevice
      obtain ⟨s, w, hs, hw⟩ := hknown a ha hsucceeded
      have hnone := hunknown' b hb s (hsession ▸ hs)
      cases hnone.symm.trans (hdevice ▸ hw)

end Store.NotedBy

section Measured

variable {measure : SessionId → DeviceId → Task Session Scalar}
  (hmeasure : ∀ k d, (measure k d).Within Session.Later)
include hmeasure

/-- What the answer to a request adds to the notes and to the throughputs of the session. -/
theorem ShareRequest.noting_ensures (q : ShareRequest) : (q.noting measure).Ensures .any
    (fun z _ => q.state.Later z.1.2 ∧
      NotedBy (q.state.weights, [], q.state) (z.1.2.weights, z.2, z.1.2)) () := by
  apply Program.Ensures.and
  · -- the session goes on as it does without notes
    have hwithin : (Performer.measuring measure q.session q.elements q.devices).Within
      Session.Later :=
      Session.onWeights_within (Session.partitionByPerformance_within (hmeasure _) _ _)
    have houtcome := hwithin.outcome q.state
    rwa [← q.noting_forget, map_eq_pure_bind, Program.ensures_bind] at houtcome
  · rw [noting, Program.ensures_bind]
    refine Program.Ensures.imp (partitionByPerformance_noted (measure q.session)
      q.elements q.devices (q.state.weights, [], q.state)) ?_
    rintro ⟨_ | _, W, log, s⟩ _ h <;> exact ⟨h.weights, h.notes⟩

/-- The measurements of a task that asks for shares at most once. -/
theorem Foresees.noted {α : Type} {t : Performer → Task Store α} {S : Store}
    {ahead : Program (Ahead (Except Fault α × Store))} (h : Foresees Store.seen t S ahead)
    (log : List (SessionId × Measurement)) : (ahead >>= Ahead.noting measure).Ensures .any
      (fun z _ => Store.NotedBy (S, log) (z.1.2, log ++ z.2)) () := by
  rw [Program.ensures_bind]
  refine h.keeps.imp fun o _ ho => ?_
  cases o with
  | done r =>
    rw [Ahead.noting, Program.ensures_pure, List.append_nil]
    exact .of_onward (Continues.onward ho)
  | asks q next =>
    obtain ⟨⟨s, hs, hlater⟩, hnext⟩ := ho
    rw [Ahead.noting, Program.ensures_bind]
    refine (q.noting_ensures hmeasure).imp ?_
    rintro ⟨⟨r, s₁⟩, notes⟩ _ ⟨hlater₁, -, new, hnew, hunknown, hknown, honce⟩
    obtain rfl : notes = new := hnew
    rw [Program.ensures_bind]
    refine (hnext r s₁ hlater₁).imp ?_
    rintro z _ ⟨hcontinues, s', hs', hlater'⟩
    refine ⟨hcontinues.onward, _, rfl, ?_, ?_, ?_⟩
    · simp only [List.forall_mem_map]
      rintro a ha s₀ hs₀
      obtain rfl : s = s₀ := Option.some_inj.mp (hs.symm.trans hs₀)
      exact hlater.lookup_eq_none (hunknown a ha)
    · simp only [List.forall_mem_map]
      rintro a ha hsucceeded
      obtain ⟨w, hw⟩ := hknown a ha hsucceeded
      exact ⟨s', w, hs', lookup_of_grown hlater'.weights hw⟩
    · exact List.pairwise_map.mpr (honce.imp fun hab hsucceeded _ => hab hsucceeded)

end Measured

end DistributedVector
