import DistributedVector.Proofs.Bystanders
import DistributedVector.Proofs.Refinement
import DistributedVector.Proofs.Representation

/-!
# Event slots are enough to wait on

All actions keep the slots of all vectors saying enough, whether they succeed or break off: what
works inside a vector does, sessions work on buffers of their own, and a new vector has slots of its
own, which come with it into the store.

Some of the results are about what an action leaves in host arrays, if these are guarded: whatever
is looked at is not about to change, and after an action that has waited nothing is left to be
stored.

## Main definitions

* `Store.Covered` — the slots of all vectors say enough
* `Store.Awaits` — so do those of a vector that is not in the store
* `Store.Tends`, `Store.Finishes` — tasks that keep it so
* `Attended` — the stores and devices that come up in a world

## Main results

* `Action.run_finishes` — every action
* `Attended.covered` — every store that comes up
-/

namespace DistributedVector

variable {m m' : Allocated} {P P' : List Pending} {guarded : Prop} {views : HostView → Prop}

namespace Store

variable {α β : Type} {S S' : Store} {v w : VectorId} {d d' e e' : Descriptor}
  {x : Allocated × List Pending}

/-- Pending commands are about buffers that have been allocated, and the slots of all vectors say
enough. -/
structure Covered (m : Allocated) (P : List Pending) (S : Store) : Prop where
  owned : S.Owned m
  held : Held m P
  covered : ∀ (v : VectorId) d, S.vectors[v]? = some d → d.Covered P

/-- A vector is not in the store; it owns its buffers, and its slots say enough, too. -/
structure Awaits (m : Allocated) (P : List Pending) (S : Store) (d : Descriptor) : Prop where
  store : S.Covered m P
  owned : d.Owned m
  covered : d.Covered P
  apart : ∀ (v : VectorId) e, S.vectors[v]? = some e → ∀ b ∈ d.buffers, b ∉ e.buffers

namespace Covered

/-- A task inside a vector has done no more than it may. -/
theorem put (hS : S.Covered m P) (hv : S.vectors[v]? = some d) (h : d.Moved m P d' x) :
    Covered x.1 x.2 { S with vectors := S.vectors.setIfInBounds v d' } := by
  obtain ⟨m', P'⟩ := x
  obtain rfl : m' = m := h.memory
  refine ⟨hS.owned.of_later (Eventless.put S v d d' hv h.same) (.refl m'), h.held hS.held,
    fun w e hw => ?_⟩
  by_cases hne : v = w
  · subst hne
    obtain rfl := Option.some_inj.mp ((getElem?_put hv).symm.trans hw)
    exact h.covered (hS.covered v d hv)
  · -- the buffers of the others are none of this vector
    have hw : S.vectors[w]? = some e := by rwa [Array.getElem?_setIfInBounds_ne hne] at hw
    exact fun s hs => h.others s (fun b hb =>
      hS.owned.apart w v e d hw hv (Ne.symm hne) b (mem_buffersOf.mpr ⟨s, hs, hb⟩))
        (hS.covered w e hw s hs)

/-- A session has worked on other buffers. -/
theorem spared (hS : S.Covered m P) (h : Spared m (m, P) x) (hlater : S.Later S')
    (hsame : S'.vectors = S.vectors) : S'.Covered x.1 x.2 := by
  refine ⟨hS.owned.of_later hlater h.grows, h.held hS.held, fun v d hv s hs => ?_⟩
  rw [hsame] at hv
  refine h.covered s (fun b hb => ?_) (hS.covered v d hv s hs)
  simp [((hS.owned.vectors v d hv).each s hs).present b hb]

theorem advances (hS : S.Covered m P) (h : Advances P P') : S.Covered m P' :=
  ⟨hS.owned, hS.held.advances h, fun v d hv s hs => (hS.covered v d hv s hs).advances h⟩

/-- Two vectors are exchanged together with their slots. -/
theorem exchange (hS : S.Covered m P) (hv : S.vectors[v]? = some d) (hw : S.vectors[w]? = some e) :
    Covered m P { S with vectors := (S.vectors.setIfInBounds v e).setIfInBounds w d } :=
  ⟨hS.owned.exchange hv hw, hS.held, fun u a hu => hS.covered _ a (getElem?_exchange hv hw u ▸ hu)⟩

end Covered

namespace Awaits

/-- A task inside the vector has done no more than it may. -/
theorem move (h : S.Awaits m P d) (hmoved : d.Moved m P d' x) : S.Awaits x.1 x.2 d' := by
  obtain ⟨m', P'⟩ := x
  obtain rfl : m' = m := hmoved.memory
  refine ⟨⟨h.store.owned, hmoved.held h.store.held, fun w e hw s hs => ?_⟩,
    h.owned.of_forget hmoved.same, hmoved.covered h.covered, ?_⟩
  · exact hmoved.others s (fun b hb hmem =>
      h.apart w e hw b hmem (mem_buffersOf.mpr ⟨s, hs, hb⟩)) (h.store.covered w e hw s hs)
  · rw [Descriptor.buffers_of_forget hmoved.same]
    exact h.apart

/-- A task inside another vector has done no more than it may. -/
theorem put (h : S.Awaits m P d) (hv : S.vectors[v]? = some e) (hmoved : e.Moved m P e' x) :
    Awaits x.1 x.2 { S with vectors := S.vectors.setIfInBounds v e' } d := by
  refine ⟨h.store.put hv hmoved, hmoved.memory.symm ▸ h.owned, fun s hs => ?_,
    fun w a hw b hb => ?_⟩
  · exact hmoved.others s (fun b hb => h.apart v e hv b (mem_buffersOf.mpr ⟨s, hs, hb⟩))
      (h.covered s hs)
  · obtain ⟨a', ha', hsame⟩ := exists_of_outline (outline_put hv hmoved.same) hw
    rw [Descriptor.buffers_of_forget hsame]
    exact h.apart w a' ha' b hb

theorem advances (h : S.Awaits m P d) (hP : Advances P P') : S.Awaits m P' d :=
  ⟨h.store.advances hP, h.owned, fun s hs => (h.covered s hs).advances hP, h.apart⟩

/-- The vector comes into the store with its slots. -/
theorem insert (h : S.Awaits m P d) {u : VectorId} (hu : S'.vectors[u]? = some d)
    (hothers : ∀ w, w ≠ u → S'.vectors[w]? = S.vectors[w]?) (hsessions : S'.sessions = S.sessions) :
    S'.Covered m P := by
  refine ⟨h.store.owned.insert_apart (.refl m) h.owned h.apart hu hothers hsessions, h.store.held,
    fun w e hw => ?_⟩
  by_cases hwu : w = u
  · subst hwu
    obtain rfl := Option.some_inj.mp (hu.symm.trans hw)
    exact h.covered
  · exact h.store.covered w e (hothers w hwu ▸ hw)

/-- The vector takes the place of another one. -/
theorem replace (h : S.Awaits m P d) (v : VectorId) :
    Covered m P { S with vectors := S.vectors.setIfInBounds v d } := by
  cases hv : S.vectors[v]? with
  | none =>
    rw [Array.setIfInBounds_eq_of_size_le (Array.getElem?_eq_none_iff.mp hv)]
    exact h.store
  | some e =>
    exact h.insert (getElem?_put hv) (fun _ hw => Array.getElem?_setIfInBounds_ne (Ne.symm hw)) rfl

/-- The vector is added to the store. -/
theorem push (h : S.Awaits m P d) : Covered m P { S with vectors := S.vectors.push d } :=
  h.insert Array.getElem?_push_size (fun w hw => by rw [Array.getElem?_push, if_neg hw]) rfl

end Awaits

/-- A task keeps the slots saying enough; if host arrays are guarded and nothing is about to be
stored into the views in `views`, it is careful, and leaves no array to be filled if it succeeds. -/
def Tends (guarded : Prop) (views : HostView → Prop) (t : Task Store α) : Prop :=
  ∀ S m P, S.Covered m P → (guarded → ∀ view, views view → view.Free P) →
    t.Ensures (queueing guarded)
    (fun _ S' x => S'.Covered x.1 x.2 ∧ (guarded → Quiet P x.2))
      (fun _ S' x => S'.Covered x.1 x.2) S
    (m, P)

/-- Likewise, but arrays may be left to be filled. -/
def Finishes (guarded : Prop) (views : HostView → Prop) (t : Task Store α) : Prop :=
  ∀ S m P, S.Covered m P → (guarded → ∀ view, views view → view.Free P) →
    t.Ensures (queueing guarded)
    (fun _ S' x => S'.Covered x.1 x.2) (fun _ S' x => S'.Covered x.1 x.2) S (m, P)

section Rules

theorem Tends.finishes {t : Task Store α} (ht : Tends guarded views t) : Finishes guarded views t :=
  fun S m P hS hviews => (ht S m P hS hviews).imp_ok fun _ _ _ h => h.1

theorem Tends.bind {t : Task Store α} {g : α → Task Store β} (ht : Tends guarded views t)
    (hg : ∀ a, Tends guarded views (g a)) : Tends guarded views (t >>= g) := by
  intro S m P hS hviews
  rw [Task.ensures_bind]
  refine (ht S m P hS hviews).imp_ok ?_
  rintro a S' x ⟨hS', hquiet⟩
  refine (hg a S' x.1 x.2 hS' fun h view hview => (hquiet h).free (hviews h view hview)).imp_ok ?_
  exact fun _ _ _ h => ⟨h.1, fun hg => (hquiet hg).trans (h.2 hg)⟩

theorem Tends.bind_finishes {t : Task Store α} {g : α → Task Store β} (ht : Tends guarded views t)
    (hg : ∀ a, Finishes guarded views (g a)) : Finishes guarded views (t >>= g) := by
  intro S m P hS hviews
  rw [Task.ensures_bind]
  refine (ht S m P hS hviews).imp_ok ?_
  rintro a S' x ⟨hS', hquiet⟩
  exact hg a S' x.1 x.2 hS' fun h view hview => (hquiet h).free (hviews h view hview)

/-- Nothing has to be free for a task that looks at no array. -/
theorem Finishes.bind {t : Task Store α} {g : α → Task Store β} (ht : Finishes guarded views t)
    (hg : ∀ a, Finishes guarded (fun _ => False) (g a)) : Finishes guarded views (t >>= g) := by
  intro S m P hS hviews
  rw [Task.ensures_bind]
  exact (ht S m P hS hviews).imp_ok fun a S' x hS' => hg a S' x.1 x.2 hS' fun _ _ h => h.elim

theorem tends_pure (a : α) : Tends guarded views (pure a) :=
  fun _ _ P hS _ => ⟨hS, fun _ => .refl P⟩

theorem tends_throw (e : Fault) : Tends guarded views (throw e : Task Store α) :=
  fun _ _ _ hS _ => hS

theorem tends_orFault {ε : Type} (f : ε → Fault) (r : Except ε α) :
    Tends guarded views (orFault f r) := fun _ _ P hS _ =>
  ensures_orFault.mpr ⟨fun _ _ => ⟨hS, fun _ => .refl P⟩, fun _ _ => hS⟩

/-- What does no more than it may in a vector keeps all slots saying enough. -/
theorem onVector_tends {t : Task Descriptor α} (ht : Vector.Keeps guarded t) (v : VectorId) :
    Tends guarded views (onVector v t) := by
  intro S m P hS _
  rw [onVector_ensures]
  refine ⟨fun d hv => ?_, fun _ => hS⟩
  exact (ht d m P (hS.owned.vectors v d hv)).imp (fun _ _ _ h => ⟨hS.put hv h.1, h.2⟩)
    fun _ _ _ h => hS.put hv h

/-- So does a session that leaves all buffers alone. -/
theorem onSession_tends {t : Task Session α} (hlater : t.Within Session.Later)
    (ht : ∀ m, t.Spares guarded m m) (k : SessionId) : Tends guarded views (onSession k t) := by
  intro S m P hS _
  rw [onSession_ensures]
  refine ⟨fun s hs => ?_, fun _ => hS⟩
  refine ((ht m s m P (.refl m)).within hlater).imp ?_ ?_
  · exact fun _ _ _ h => ⟨hS.spared h.1.1 (later_putSession hs h.2) rfl, h.1.2⟩
  · exact fun _ _ _ h => hS.spared h.1 (later_putSession hs h.2) rfl

theorem contents_tends {view : HostView} (h : views view) :
    Tends guarded views (Vector.contents view) := fun _ _ _ hS hviews =>
  Vector.contents_quiet (fun hg => hviews hg view h) fun _ _ ha =>
    ⟨hS.advances ha, fun _ => .of_subset ha.mem⟩

theorem multiply_tends (operator : String) (alpha : Float) (append : Bool) :
    Tends guarded views (Task.perform (Program.ask (.multiply operator alpha append))) := by
  intro S m P hS _
  rw [Task.ensures_perform]
  refine ⟨fun _ => trivial, ?_⟩
  rintro r ⟨m', P'⟩ ⟨hm, hP, -⟩
  obtain rfl : m' = m := hm
  exact ⟨hS.advances hP, fun _ => .of_subset hP.mem⟩

theorem readEach_keeps (d : Descriptor) (positions : List Nat) :
    Vector.Keeps guarded (readEach d positions) := by
  induction positions with
  | nil => exact Vector.keeps_pure _
  | cons i rest ih =>
    exact (Vector.readElement_keeps _ _).bind fun _ => ih.bind fun _ => Vector.keeps_pure _

theorem inner_keeps {t : Task Descriptor α} (h : Vector.Inner t) : Vector.Keeps guarded t := by
  cases h with
  | checkRange => exact Vector.checkRange_keeps _ _
  | write => exact Vector.write_keeps _ _ _ _
  | readRange => exact Vector.readRange_keeps _ _
  | readAll => exact Vector.readAll_keeps
  | readEach => exact readEach_keeps _ _
  | readElement => exact Vector.readElement_keeps _ _
  | writeElements => exact Vector.writeElements_keeps _ _ _
  | dispatch => exact Vector.dispatch_keeps _ _ _

theorem copyFrom_tends (v w : VectorId) (hevaluate : ∀ e, Tends guarded views (evaluate v e)) :
    Tends guarded views (copyFrom v w) := by
  intro S m P hS hviews
  simp only [copyFrom, Task.ensures_ite, Task.ensures_pure, Task.ensures_bind, vector_ensures,
    ensures_orFault]
  refine ⟨fun _ => ⟨hS, fun _ => .refl P⟩, fun _ => ⟨fun target hv => ⟨fun source _ => ⟨fun _ _ =>
    ⟨fun _ => hevaluate _ S m P hS hviews, fun _ => ?_⟩, fun _ _ => hS⟩, fun _ => hS⟩, fun _ => hS⟩⟩
  rw [onVector_ensures_of_some hv]
  refine (Vector.copyShards_keeps (hS.owned.vectors v target hv) fun k p hp => ?_).imp
    (fun _ _ _ h => ⟨hS.put hv h.1, h.2⟩) fun _ _ _ h => hS.put hv h
  obtain ⟨-, hmine⟩ := List.getElem?_zip_eq_some.mp hp
  exact ⟨p.2, by rwa [Nat.zero_add], rfl, rfl⟩

theorem read_ensures_tends (v : VectorId) (offset count : Int) {goal : Vector.ReadTarget}
    (blocking : Bool) (hS : S.Covered m P)
    (hgoal : guarded → ∀ view, goal = .array view → view.Free P) :
    (onVector v (Vector.read offset count goal blocking)).Ensures (queueing guarded)
      (fun view S' x => S'.Covered x.1 x.2 ∧
        (blocking = true → guarded → Quiet P x.2 ∧ view.Free x.2))
      (fun _ S' x => S'.Covered x.1 x.2) S (m, P) := by
  rw [onVector_ensures]
  refine ⟨fun d hv => ?_, fun _ => hS⟩
  exact (Vector.read_moved offset count blocking (hS.owned.vectors v d hv) hgoal).imp
    (fun _ _ _ h => ⟨hS.put hv h.1, h.2⟩) fun _ _ _ h => hS.put hv h

/-- Operations keep the slots saying enough, and leave alone what is about to be stored into. -/
def Logic.tends (guarded : Prop) : Logic where
  holds views _ t := Tends guarded views t
  ends views _ t := Finishes guarded views t
  done := tends_pure
  fail := tends_throw
  state := fun _ _ P hS _ => ⟨hS, fun _ => .refl P⟩
  check := tends_orFault
  seq := Tends.bind
  contents := contents_tends
  multiply := multiply_tends
  onVector v h := onVector_tends (inner_keeps h) v
  copyFrom := copyFrom_tends
  last := Tends.finishes
  seqEnds := Tends.bind_finishes
  endsSeq ht hg := ht.bind fun a => (hg a).finishes
  read v offset count goal blocking hgoal := fun S m P hS hviews =>
    (read_ensures_tends v offset count blocking hS fun hg view hview =>
      hviews hg view (hgoal view hview)).imp_ok fun _ _ _ h => h.1
  slice v offset count g hg := fun S m P hS _ => by
    rw [Task.ensures_bind]
    refine (read_ensures_tends v offset count true hS fun _ _ h => by cases h).imp_ok ?_
    rintro view S' x ⟨hS', hfree⟩
    exact hg view S' x.1 x.2 hS' fun h w hw => hw ▸ (hfree rfl h).2

theorem compile_tends (k : SessionId) (devices : List DeviceId) (f : Formula DataType)
    (result : Option DataType) :
    (Logic.tends guarded).holds views (onSession k (Session.kernelsFor devices f result)) :=
  onSession_tends (Session.kernelsFor_within devices)
    (fun _ => Session.kernelsFor_spares devices f result) k

end Rules

/-! ## New vectors -/

section Making

/-- A vector that is made awaits the store with slots that say enough. -/
theorem make_covers {b : Blueprint} (hS : S.Covered m P)
    (hviews : guarded → ∀ view, views view → view.Free P)
    (hextent : ∀ source, b.extent = .data source → source.Known views)
    (hhost : ∀ source, b.host = some source → source.Known views) :
    (make b).Ensures (queueing guarded)
      (fun d S' x => S'.Awaits x.1 x.2 d ∧ (guarded → Quiet P x.2))
      (fun _ S' x => S'.Covered x.1 x.2) S (m, P) := by
  simp only [make, makeBy, Task.ensures_bind, Task.ensures_ite]
  refine ⟨fun _ => hS, fun _ => ?_⟩
  have hresolve : Tends guarded views (resolveExtent b) :=
    Logic.resolveExtent (L := .tends guarded) hextent hhost
  refine (hresolve S m P hS hviews).imp_ok ?_
  rintro ⟨n, host⟩ S₁ ⟨m₁, P₁⟩ ⟨hS₁, hquiet₁⟩
  rw [onSession_ensures]
  refine ⟨fun s hs => ?_, fun _ => hS₁⟩
  -- the session spares all buffers that have been there when it begins to make the vector
  refine ((Session.create_spares (.refl m₁) (Session.partition_spares (.refl m₁) b.session) _ s
    (.refl m₁)).within (Session.create_within (Session.performance_within b.session) _)).imp ?_ ?_
  · rintro d s' x ⟨⟨⟨hspared, hquiet⟩, hnew⟩, hlater⟩
    refine ⟨⟨hS₁.spared hspared (later_putSession hs hlater) rfl, hnew.owned,
      hnew.covered hS₁.held, fun v e hv b hb => ?_⟩, fun hg => (hquiet₁ hg).trans (hquiet hg)⟩
    exact (hS₁.owned.vectors v e hv).notMem_of_new (hnew.new b hb)
  · exact fun _ _ _ h => hS₁.spared h.1 (later_putSession hs h.2) rfl

/-- The vector is the one that has been asked for, too, and the store a later one. -/
theorem make_awaits {b : Blueprint} (hS : S.Covered m P)
    (hviews : guarded → ∀ view, views view → view.Free P)
    (hextent : ∀ source, b.extent = .data source → source.Known views)
    (hhost : ∀ source, b.host = some source → source.Known views) :
    (make b).Ensures (queueing guarded)
      (fun d S' x => (S'.Awaits x.1 x.2 d ∧ (guarded → Quiet P x.2)) ∧ S.Later S' ∧ S.Built b d)
      (fun _ S' x => S'.Covered x.1 x.2) S (m, P) :=
  ((make_covers hS hviews hextent hhost).along allocated_of_queueing (make_prepared b)).imp
    (fun _ _ _ h => ⟨h.1, h.2.1.later, h.2.2⟩) fun _ _ _ h => h.1

theorem construct_tends {b : Blueprint}
    (hextent : ∀ source, b.extent = .data source → source.Known views)
    (hhost : ∀ source, b.host = some source → source.Known views) :
    Tends guarded views (construct b) := by
  intro S m P hS hviews
  simp only [construct, constructBy, Task.ensures_bind, Task.ensures_get, Task.ensures_modify,
    Task.ensures_pure]
  exact (make_awaits hS hviews hextent hhost).imp_ok fun _ _ _ h => ⟨h.1.1.push, h.1.2⟩

theorem swap_tends (v w : VectorId) : Tends guarded views (swap v w) := by
  intro S m P hS _
  simp only [swap, setVector, Task.ensures_bind, vector_ensures, Task.ensures_modify]
  exact ⟨fun a hv => ⟨fun b hw => ⟨hS.exchange hv hw, fun _ => .refl P⟩, fun _ => hS⟩, fun _ => hS⟩

theorem resizeLike_tends (v w : VectorId) (access : Access) :
    Tends guarded views (resizeLike v w access) := by
  intro S m P hS hviews
  simp only [resizeLike, setVector, Task.ensures_ite, Task.ensures_pure, Task.ensures_bind,
    vector_ensures, Task.ensures_modify]
  refine ⟨fun _ => ⟨hS, fun _ => .refl P⟩, fun _ => ⟨fun d _ => ⟨fun e _ => ?_, fun _ => hS⟩,
    fun _ => hS⟩⟩
  refine (make_awaits hS hviews (fun _ h => by cases h) fun _ h => by cases h).imp_ok ?_
  rintro fresh S₁ x ⟨⟨hawaits, hquiet⟩, -⟩
  -- the elements come after the vector is in place
  have hassign : Tends guarded views (assign v (.vector w)) :=
    Logic.assign (L := .tends guarded) compile_tends v _
  refine (hassign _ x.1 x.2 (hawaits.replace v) fun h view hview =>
    (hquiet h).free (hviews h view hview)).imp_ok ?_
  exact fun _ _ _ h => ⟨h.1, fun hg => (hquiet hg).trans (h.2 hg)⟩

theorem resizeTo_tends (v : VectorId) (devices : List DeviceId) {extent : Option Extent}
    {host : Option Collection} (access : Access)
    (hextent : ∀ source, extent = some (.data source) → source.Known views)
    (hhost : ∀ source, host = some source → source.Known views) :
    Tends guarded views (resizeTo v devices extent host access) := by
  intro S m P hS hviews
  cases extent with
  | none => exact hS
  | some extent =>
    simp only [resizeTo, resizeToBy, setVector, Task.ensures_bind, vector_ensures,
      Task.ensures_modify]
    refine ⟨fun d _ => ?_, fun _ => hS⟩
    exact (make_awaits hS hviews (fun source h => hextent source (congrArg some h)) hhost).imp_ok
      fun _ _ _ h => ⟨h.1.1.replace v, h.1.2⟩

/-- A piece that stays lies on a shard of the new vector, which has the number of the old one. -/
theorem mem_keptPieces {keep index oldStart newStart : Nat} {pairs : List (Shard × Shard)}
    {p : KeptPiece} (hp : p ∈ keptPieces keep index oldStart newStart pairs) :
    ∃ k old new, pairs[k]? = some (old, new) ∧ p.shard = index + k ∧ p.device = old.device ∧
      p.target = new.buffer := by
  induction pairs generalizing index oldStart newStart with
  | nil => simp [keptPieces] at hp
  | cons pair rest ih =>
    obtain ⟨old, new⟩ := pair
    have hothers (hp : p ∈ keptPieces keep (index + 1) (oldStart + old.length)
      (newStart + new.length)
        rest) : ∃ k a b, ((old, new) :: rest)[k]? = some (a, b) ∧ p.shard = index + k ∧
          p.device = a.device ∧ p.target = b.buffer := by
      obtain ⟨k, a, b, hk, hshard, hrest⟩ := ih hp
      exact ⟨k + 1, a, b, by simpa using hk, by omega, hrest⟩
    simp only [keptPieces] at hp
    split at hp
    · rcases List.mem_cons.mp hp with rfl | hp
      · exact ⟨0, old, new, rfl, rfl, rfl, rfl⟩
      · exact hothers hp
    · exact hothers hp

/-- Pieces stay on the devices of the new vector, which are those of the old one. -/
theorem has_of_mem_keptPieces {fresh : Descriptor} {keep : Nat} {p : KeptPiece}
    (hdevices : fresh.devices = d.devices)
    (hp : p ∈ keptPieces keep 0 0 0 (d.shards.zip fresh.shards)) :
    fresh.Has p.shard p.device p.target := by
  obtain ⟨k, old, new, hk, hshard, hdevice, htarget⟩ := mem_keptPieces hp
  obtain ⟨hold, hnew⟩ := List.getElem?_zip_eq_some.mp hk
  refine ⟨new, by rwa [hshard, Nat.zero_add], ?_, htarget.symm⟩
  have hget := congrArg (·[k]?) hdevices
  simp only [Descriptor.devices, List.getElem?_map, hold, hnew, Option.map_some, Option.some.injEq]
    at hget
  rw [hget, hdevice]

/-- Waiting for the slots of a vector leaves everything else as it is. -/
theorem waitAll_advances (shards : List Shard) : (Vector.waitAll shards : Task Store Unit).Ensures
    (queueing guarded) (fun _ S' x => S' = S ∧ x.1 = m ∧ Advances P x.2)
    (fun _ _ _ => False) S (m, P) := by
  induction shards generalizing P with
  | nil => exact ⟨rfl, rfl, .refl P⟩
  | cons s rest ih =>
    rw [Vector.waitAll]
    split
    · rw [Task.ensures_bind, ensures_issue]
      refine ⟨fun _ => trivial, ?_⟩
      rintro r ⟨m', P'⟩ ⟨hm, ⟨rfl, ha, -⟩, -⟩
      obtain rfl : m' = m := hm
      exact ⟨fun _ _ => ih.imp (fun _ _ _ h => ⟨h.1, h.2.1, ha.trans h.2.2⟩) fun _ _ _ h => h,
        fun _ he => by cases he⟩
    · exact ih

/-- Elements move through the host between vectors whose slots say enough. -/
theorem moveRuns_awaits (v : VectorId) (runs : List (Nat × Nat)) (h : S.Awaits m P d) :
    (moveRuns v d runs).Ensures (queueing guarded)
      (fun d' S' x => S'.Awaits x.1 x.2 d' ∧ (guarded → Quiet P x.2))
      (fun _ S' x => S'.Covered x.1 x.2) S (m, P) := by
  induction runs generalizing d S m P with
  | nil => exact ⟨h, fun _ => .refl P⟩
  | cons run rest ih =>
    obtain ⟨start, stop⟩ := run
    simp only [moveRuns, Task.ensures_bind, onVector_ensures, Task.ensures_runOn]
    refine ⟨fun e hv => ?_, fun _ => h.store⟩
    refine (Vector.readRange_keeps start _ e m P (h.store.owned.vectors v e hv)).imp ?_
      fun _ _ _ hmoved => h.store.put hv hmoved
    rintro data e₁ ⟨m₁, P₁⟩ ⟨hmoved₁, hquiet₁⟩
    have h₁ := h.put hv hmoved₁
    refine (Vector.write_keeps start _ data true d m₁ P₁ h₁.owned).imp ?_
      fun _ _ _ hmoved => (h₁.move hmoved).store
    rintro _ d₂ ⟨m₂, P₂⟩ ⟨hmoved₂, hquiet₂⟩
    exact (ih (h₁.move hmoved₂)).imp_ok fun _ _ _ hpost => ⟨hpost.1, fun hg =>
      ((hquiet₁ hg).trans (hquiet₂ hg)).trans (hpost.2 hg)⟩

theorem resizePreserving_tends (v : VectorId) (size : Int) :
    Tends guarded views (resizePreserving v size) := by
  intro S m P hS hviews
  simp only [resizePreserving, resizePreservingBy, setVector, Task.ensures_bind, vector_ensures,
    Task.ensures_runOn, Task.ensures_modify]
  refine ⟨fun d _ => ?_, fun _ => hS⟩
  refine (make_awaits hS hviews (fun _ h => by cases h) fun _ h => by cases h).imp_ok ?_
  rintro fresh S₁ ⟨m₁, P₁⟩ ⟨⟨h₁, hquiet₁⟩, -, hbuilt⟩
  -- pieces that stay are copied, and the copies are waited for
  refine (Vector.copyPieces_keeps h₁.owned
    fun p hp => has_of_mem_keptPieces hbuilt.devices hp).imp ?_
    fun _ _ _ hmoved => (h₁.move hmoved).store
  rintro _ fresh₂ ⟨m₂, P₂⟩ ⟨hmoved₂, hquiet₂⟩
  have h₂ := h₁.move hmoved₂
  refine (waitAll_advances fresh₂.shards).imp ?_ fun _ _ _ h => h.elim
  rintro _ _ ⟨m₃, P₃⟩ ⟨rfl, hm, ha⟩
  obtain rfl : m₃ = m₂ := hm
  -- the others move through the host before the new vector comes into the store
  refine (moveRuns_awaits v _ (h₂.advances ha)).imp_ok ?_
  exact fun _ _ _ h => ⟨h.1.replace v, fun hg =>
    (hquiet₁ hg).trans ((hquiet₂ hg).trans ((Quiet.of_subset ha.mem).trans (h.2 hg)))⟩

end Making

end Store

/-! ## Actions -/

namespace Operation

open Store

/-- The host arrays that an operation is given are among those that may be used. -/
def Known (views : HostView → Prop) : Operation → Prop
  | construct b => (∀ source, b.extent = .data source → source.Known views) ∧
    ∀ source, b.host = some source → source.Known views
  | write _ _ _ source _ => source.Known views
  | read _ _ _ goal _ => ∀ view, goal = .array view → views view
  | setSlice _ _ x => x.Known views
  | copy source target _ => source.Known views ∧ target.Known views
  | copyRange first last result _ => ∀ count, last.diff first = .ok count →
    first.Known views count ∧ result.Known views count
  | resizeTo _ _ extent host _ => (∀ source, extent = some (.data source) → source.Known views) ∧
    ∀ source, host = some source → source.Known views
  | _ => True

theorem known_true (op : Operation) : op.Known fun _ => True := by
  cases op with
  | construct | resizeTo => exact ⟨fun c _ => c.known_true, fun c _ => c.known_true⟩
  | write _ _ _ source => exact source.known_true
  | read => exact fun _ _ => trivial
  | setSlice _ _ x => exact x.known_true
  | copy source target => exact ⟨source.known_true, target.known_true⟩
  | copyRange first _ result => exact fun _ _ => ⟨first.known_true _, result.known_true _⟩
  | _ => trivial

/-- What an operation reads for its answer, it waits for. -/
def Waits : Operation → Prop
  | read _ _ _ _ blocking => blocking = true
  | _ => True

theorem run_finishes {op : Operation} (hop : op.Known views) (hwaits : guarded → op.Waits) :
    Finishes guarded views op.run := by
  -- naming the answer makes no call
  have hanswer : ∀ {α : Type} {t : Task Store α} {answer : α → Answer}, Finishes guarded views t →
      Finishes guarded views (do return answer (← t)) := fun ht =>
    ht.bind fun _ => (tends_pure _).finishes
  have htends : ∀ {α : Type} {t : Task Store α} {answer : α → Answer}, Tends guarded views t →
      Finishes guarded views (do return answer (← t)) := fun ht => hanswer ht.finishes
  cases op with
  | construct b => exact htends (construct_tends hop.1 hop.2)
  | write v offset count source blocking =>
    exact htends (Logic.write (L := .tends guarded) v _ _ _ hop)
  | read v offset count goal blocking =>
    intro S m P hS hviews
    rw [run, Task.ensures_bind]
    refine (read_ensures_tends v offset count blocking hS fun hg view hview =>
      hviews hg view (hop view hview)).imp_ok ?_
    rintro view S' ⟨m', P'⟩ ⟨hS', hfree⟩
    rw [Task.ensures_bind]
    exact Vector.contents_quiet (fun hg => (hfree (hwaits hg) hg).2) fun _ _ ha => hS'.advances ha
  | get v index => exact htends (Logic.readAt (L := .tends guarded) v index)
  | set v index x =>
    exact htends (Logic.set (L := .tends guarded) v index (x := .operand (.host x)) trivial)
  | getSlice v s => exact htends (Logic.getSlice (L := .tends guarded) v s)
  | setSlice v s x => exact htends (Logic.setSlice (L := .tends guarded) compile_tends v s hop)
  | iterate v => exact htends (Logic.elements (L := .tends guarded) v)
  | copy source target blocking =>
    exact hanswer (Logic.copy (L := .tends guarded) compile_tends blocking hop.1 hop.2)
  | copyRange first last result blocking =>
    exact hanswer (Logic.copyRange (L := .tends guarded) blocking (fun count h => (hop count h).1)
      fun count h => (hop count h).2)
  | assign v source => exact htends (Logic.assign (L := .tends guarded) compile_tends v source)
  | update v op source =>
    exact htends (Logic.update (L := .tends guarded) compile_tends v op source)
  | resizeLike v w access => exact htends (resizeLike_tends v w access)
  | resizeTo v devices extent host access =>
    exact htends (resizeTo_tends v devices access hop.1 hop.2)
  | resizePreserving v size => exact htends (resizePreserving_tends v size)
  | swap v w => exact htends (swap_tends v w)

end Operation

open Store DistributedVector.Task in
theorem Request.run_spares (k : SessionId) (r : Request) (m : Allocated) :
    (r.run k).Spares guarded m m := by
  cases r with
  | kernel typeOf devices e result =>
    exact (Session.kernel_spares typeOf devices e result).bind fun _ => spares_pure _
  | kernels typeOf devices e result =>
    exact (Session.kernels_spares typeOf devices e result).bind fun _ => spares_pure _
  | setStrategy strategy => exact Session.setStrategy_spares strategy
  | partition n devices =>
    exact (Session.partition_spares (.refl m) k n devices).bind fun _ => spares_pure _
  | weight device => exact (Session.weight_spares (.refl m) k device).bind fun _ => spares_pure _

open Store in
/-- Every action keeps the slots saying enough, whatever becomes of host arrays. -/
theorem Action.run_finishes (a : Action) : Finishes False (fun _ => True) a.run := by
  cases a with
  | operation op =>
    exact (Operation.run_finishes op.known_true False.elim).bind fun _ => (tends_pure _).finishes
  | set v index x => exact (Logic.set (L := .tends False) v index x.known_true).finishes
  | synchronize v => exact (onVector_tends Vector.synchronize_keeps v).finishes
  | request k r => exact (onSession_tends (r.run_within k) (r.run_spares k) k).finishes

/-! ## Runs -/

section Runs

variable {V : Type} {A : Arithmetic V} {w : World V} {S S' : Store} {q q' : Queues}

/-- The stores that come up in a world, with the devices: actions follow one another, each of which
may break off, sessions are opened, the host makes arrays and writes to them, and devices go on. -/
inductive Attended (w : World V) : Store → Queues → Prop
  | start : Attended w ⟨#[], #[]⟩ .start
  | opened {S : Store} {q : Queues} (config : SessionConfig) (hardware : Hardware)
    (strategy : Option Strategy) : Attended w S q → config.validate = .ok config →
    Attended w { S with sessions := S.sessions.push (.create config hardware strategy) } q
  | array {S : Store} {q : Queues} (a : Array Scalar) : Attended w S q → Attended w S (q.newCell a)
  | change {S : Store} {q : Queues} (c : CellId) (offset : Nat) (values : List Scalar) :
    Attended w S q → Attended w S (q.change c offset values)
  | idle {S : Store} {q : Queues} (ds : List DeviceId) : Attended w S q →
    Attended w S (q.advance w.arithmetic ds)
  | action {S S' : Store} {q q' : Queues} {r : Except Fault Unit} (a : Action) : Attended w S q →
    (a.run.runFrom S).run w.handle q = ((r, S'), q') → Attended w S' q'

/-- There is nothing to wait for where there are no vectors. -/
theorem Store.Covered.empty (m : Allocated) : Store.Covered m [] ⟨#[], #[]⟩ :=
  ⟨.empty m, fun _ hp => absurd hp List.not_mem_nil, by simp⟩

/-- A session that is opened keeps the slots saying enough. -/
theorem Store.Covered.openSession {config : SessionConfig} (hS : S.Covered m P)
    (hconfig : config.validate = .ok config) (hardware : Hardware) (strategy : Option Strategy) :
    Store.Covered m P
      { S with sessions := S.sessions.push (.create config hardware strategy) } := by
  refine ⟨⟨hS.owned.vectors, hS.owned.apart, fun k s hs => ?_⟩, hS.held, hS.covered⟩
  rw [Array.getElem?_push] at hs
  split at hs
  · cases hs
    exact ⟨hconfig, fun _ he => absurd he List.not_mem_nil⟩
  · exact hS.owned.sessions k s hs

/-- The slots of all vectors that come up say enough. -/
theorem Attended.covered (hrun : Attended w S q) : S.Covered q.memory.allocated q.pending := by
  induction hrun with
  | start => exact .empty _
  | opened config hardware strategy _ hconfig ih => exact ih.openSession hconfig hardware strategy
  | array | change => assumption
  | idle ds _ ih =>
    rw [Queues.allocated_advance]
    exact ih.advances (Queues.advances_advance _ ds)
  | @action S S' q q' r a _ hrun ih =>
    have hall : a.run.Ensures (queueing False) (fun _ S' x => S'.Covered x.1 x.2)
        (fun _ S' x => S'.Covered x.1 x.2) S q.view := a.run_finishes S _ _ ih False.elim
    cases r with
    | ok u => exact hall.of_run_ok w.meets hrun
    | error e => exact hall.of_run_error w.meets hrun

/-- Where no pending command is about its buffers, a vector keeps its elements, however devices go
on. -/
theorem Queues.contents_advance {d : Descriptor} {q : Queues}
    (h : ∀ p ∈ q.pending, ∀ b ∈ d.buffers, ¬ p.command.Holds b) (ds : List DeviceId) :
    d.contents (q.advance A ds).memory = d.contents q.memory := by
  refine Descriptor.contents_congr fun b hb => ?_
  induction ds generalizing q with
  | nil => rfl
  | cons device rest ih =>
    have hturn : (q.turn A device).memory.buffer b = q.memory.buffer b := by
      simp only [turn]
      cases hfind : q.pending.find? (·.device = device) with
      | none => rfl
      | some p => exact Memory.buffer_perform (h p (List.mem_of_find?_eq_some hfind) b hb) _
    rw [← hturn]
    exact ih fun p hp => h p (List.mem_of_mem_eraseP hp)

/-- A pending command that stores into a shard, or brings its elements to the host, stands in the
queue of its device, and no later than the command of the slot. -/
def Shard.WaitsFor (q : Queues) (s : Shard) : Prop :=
  ∀ b, s.buffer = some b → ∀ p ∈ q.pending, p.command.Holds b → p.device = s.device ∧
    ∃ before last after, q.queue s.device = before ++ last :: after ∧ s.event = some last.event ∧
      p ∈ before ++ [last]

/-- A slot that says enough is one to wait for: queues are in the order of the numbers of events. -/
theorem Shard.Covered.waitsFor {s : Shard} (h : s.Covered q.pending) : s.WaitsFor q := by
  intro b hb p hp hholds
  obtain ⟨hdevice, last, hlast, hdevice', hevent, hle⟩ := h p hp b hb hholds
  have hmem : ∀ {p' : Pending}, p' ∈ q.pending → p'.device = s.device → p' ∈ q.queue s.device :=
    fun hp' hd => List.mem_filter.mpr ⟨hp', by simpa using hd⟩
  obtain ⟨before, after, hqueue⟩ := List.append_of_mem (hmem hlast hdevice')
  refine ⟨hdevice, before, last, after, hqueue, hevent, ?_⟩
  have hp := hmem hp hdevice
  have hordered := q.ordered_queue s.device
  rw [hqueue] at hp hordered
  rcases List.mem_append.mp hp with hbefore | hbehind
  · exact List.mem_append_left _ hbefore
  · rcases List.mem_cons.mp hbehind with rfl | hafter
    · exact List.mem_append_right _ List.mem_cons_self
    · -- what stands behind the command of the slot has a higher number
      have := (List.pairwise_cons.mp (List.pairwise_append.mp hordered).2.1).1 p hafter
      omega

/-- Whatever has failed before, the slots of a vector are enough to wait for. When their commands
have been carried out, nothing is pending on the vector: it holds all that has been written to it,
and the host has all that has been read from it. -/
theorem Attended.slots_suffice (hrun : Attended w S q) {v : VectorId} {d : Descriptor}
    (hv : S.vectors[v]? = some d) : (∀ s ∈ d.shards, s.WaitsFor q) ∧
      ((∀ s ∈ d.shards, ∀ p ∈ q.queue s.device, s.event ≠ some p.event) →
        (∀ b ∈ d.buffers, ∀ p ∈ q.pending, ¬ p.command.Holds b) ∧
          ∀ ds, d.contents (q.advance A ds).memory = d.contents q.memory) := by
  have hslots : ∀ s ∈ d.shards, s.WaitsFor q := fun s hs =>
    (hrun.covered.covered v d hv s hs).waitsFor
  refine ⟨hslots, fun hdone => ?_⟩
  have hnone : ∀ b ∈ d.buffers, ∀ p ∈ q.pending, ¬ p.command.Holds b := by
    intro b hb p hp hholds
    obtain ⟨s, hs, hbuffer⟩ := mem_buffersOf.mp hb
    obtain ⟨-, before, last, after, hqueue, hevent, -⟩ := hslots s hs b hbuffer p hp hholds
    exact hdone s hs last (by rw [hqueue]; simp) hevent
  exact ⟨hnone, Queues.contents_advance fun p hp b hb => hnone b hb p hp⟩

end Runs

namespace Sample

/-- A world in which nothing fails and devices do nothing before they are waited for. -/
def lazy : World Scalar := ⟨.wide, fun _ _ => none, fun _ => 0, fun _ _ => []⟩

/-- A store and lazy devices after an action. -/
def acted (a : Action) (s : Store × Queues) : Store × Queues :=
  let r := (a.run.runFrom s.1).run lazy.handle s.2
  (r.1.2, r.2)

/-- A vector on two devices to which three elements are being written. -/
def writing : Store × Queues :=
  acted (.operation (.write 0 0 3 (.list [.int 1, .int 2, .int 3]) false))
    (acted (.operation three) (store, .start))

theorem attended_acted {a : Action} {s : Store × Queues} (h : Attended lazy s.1 s.2) :
    Attended lazy (acted a s).1 (acted a s).2 := .action a h rfl

theorem attended_writing : Attended lazy writing.1 writing.2 :=
  attended_acted (attended_acted (.opened {} hardware (some .equally) .start rfl))

end Sample

/-- Two writes are pending, and stand in the slots. -/
theorem Attended.slots_suffice_writing : ∃ d : Descriptor, Sample.writing.1.vectors[0]? = some d ∧
    Sample.writing.2.pending.length = 2 ∧ ∀ s ∈ d.shards, Shard.WaitsFor Sample.writing.2 s := by
  have hsome : (Sample.writing.1.vectors[0]?).isSome = true := by decide +kernel
  obtain ⟨d, hv⟩ := Option.isSome_iff_exists.mp hsome
  exact ⟨d, hv, by decide +kernel, (Attended.slots_suffice (A := .wide)
    Sample.attended_writing hv).1⟩

end DistributedVector
