import DistributedVector.Proofs.Create
import DistributedVector.Proofs.Owner
import DistributedVector.Proofs.Plain

/-!
# Stores of vectors

The vectors of a store are valid, no two of them share a buffer, and the sessions are right. An
operation inside one vector keeps all of this, and the contents of every other vector, so that it is
enough to know what it makes of the one. Seen from outside, a store is a list of plain arrays.

## Main definitions

* `Store.Valid` — the invariant of stores
* `Store.buffers` — the buffers of a vector
* `Store.Kept` — what an operation inside vectors leaves as it is
* `Store.plain`, `Store.Becomes` — the plain arrays of a store, and what an operation makes of them

## Main results

* `Store.Kept.valid` — the invariant survives
* `Store.gather_ensures`, `Store.write_ensures` — host data from vectors and into them
-/

namespace DistributedVector

namespace Store

variable {F : Fleet} {m m' m'' : Memory} {S S' S'' : Store} {B : List BufferId} {C : List CellId}
  {v w : VectorId} {d d' : Descriptor}

/-- Every vector is valid and lies on devices that may be used together, two vectors share no
buffer, and the sessions are right. -/
structure Valid (F : Fleet) (m : Memory) (S : Store) : Prop where
  vectors : ∀ (v : VectorId) (d : Descriptor), S.vectors[v]? = some d →
    d.Valid m ∧ F.inUse d.devices
  apart : ∀ (v w : VectorId) (d e : Descriptor), S.vectors[v]? = some d → S.vectors[w]? = some e →
    v ≠ w → ∀ b ∈ d.buffers, b ∉ e.buffers
  sessions : ∀ (k : SessionId) (s : Session), S.sessions[k]? = some s → s.Sound F

/-- The buffers of a vector of the store. -/
def buffers (S : Store) (v : VectorId) : List BufferId :=
  ((S.vectors[v]?).map Descriptor.buffers).getD []

theorem buffers_eq (hv : S.vectors[v]? = some d) : S.buffers v = d.buffers := by
  simp [buffers, hv]

/-- The vectors stay what they are, up to events, the memory changes in the given buffers and arrays
only, and the sessions stay right. -/
structure Kept (F : Fleet) (B : List BufferId) (C : List CellId) (S : Store)
    (m : Memory) (S' : Store) (m' : Memory) : Prop where
  vectors : ∀ v : VectorId,
    (S'.vectors[v]?).map Descriptor.forget = (S.vectors[v]?).map Descriptor.forget
  memory : m.Differs B C m'
  sessions : ∀ (k : SessionId) (s : Session), S'.sessions[k]? = some s → s.Sound F

/-- What a failed operation leaves of a store: if it has refused its arguments, no vector changes at
all. -/
def Stopped (F : Fleet) (B : List BufferId) (C : List CellId) (S : Store) (m : Memory) (e : Fault)
    (S' : Store) (m' : Memory) : Prop :=
  Kept F B C S m S' m' ∧ (e.Rejection → S'.vectors = S.vectors ∧ m.Differs [] [] m')

namespace Kept

theorem refl (hS : S.Valid F m) (B : List BufferId) (C : List CellId) : Kept F B C S m S m :=
  ⟨fun _ => rfl, .refl B C m, hS.sessions⟩

theorem trans (h : Kept F B C S m S' m') (h' : Kept F B C S' m' S'' m'') : Kept F B C S m S'' m'' :=
  ⟨fun v => (h'.vectors v).trans (h.vectors v), h.memory.trans_same h'.memory, h'.sessions⟩

theorem mono {B' : List BufferId} {C' : List CellId} (h : Kept F B C S m S' m') (hB : B ⊆ B')
    (hC : C ⊆ C') : Kept F B' C' S m S' m' :=
  ⟨h.vectors, h.memory.mono hB hC, h.sessions⟩

/-- Nothing but the memory changes. -/
theorem of_differs (hS : S.Valid F m) (h : m.Differs B C m') : Kept F B C S m S m' :=
  ⟨fun _ => rfl, h, hS.sessions⟩

/-- The vector of a number before, and after. -/
theorem exists_before (h : Kept F B C S m S' m') (hv : S'.vectors[v]? = some d') :
    ∃ d, S.vectors[v]? = some d ∧ d'.forget = d.forget := by
  have := h.vectors v
  rw [hv] at this
  obtain ⟨d, hd, hsame⟩ := Option.map_eq_some_iff.mp this.symm
  exact ⟨d, hd, hsame.symm⟩

theorem exists_after (h : Kept F B C S m S' m') (hv : S.vectors[v]? = some d) :
    ∃ d', S'.vectors[v]? = some d' ∧ d'.forget = d.forget := by
  have := h.vectors v
  rw [hv] at this
  exact Option.map_eq_some_iff.mp this

theorem size (h : Kept F B C S m S' m') : S'.vectors.size = S.vectors.size := by
  refine Nat.le_antisymm ?_ ?_ <;> refine Nat.le_of_not_lt fun hlt => ?_
  · obtain ⟨d, hd, -⟩ := h.exists_before (Array.getElem?_eq_getElem hlt)
    simp at hd
  · obtain ⟨d, hd, -⟩ := h.exists_after (Array.getElem?_eq_getElem hlt)
    simp at hd

theorem buffers_eq (h : Kept F B C S m S' m') (v : VectorId) : S'.buffers v = S.buffers v := by
  cases hv : S.vectors[v]? with
  | none =>
    have := h.vectors v
    rw [hv, Option.map_none] at this
    simp [buffers, hv, Option.map_eq_none_iff.mp this]
  | some d =>
    obtain ⟨d', hd', hsame⟩ := h.exists_after hv
    rw [Store.buffers_eq hv, Store.buffers_eq hd', Descriptor.buffers_of_forget hsame]

theorem valid (h : Kept F B C S m S' m') (hS : S.Valid F m) : S'.Valid F m' := by
  refine ⟨fun v d' hv => ?_, fun v w d' e' hv hw hne b hb => ?_, h.sessions⟩
  · obtain ⟨d, hd, hsame⟩ := h.exists_before hv
    obtain ⟨hvalid, huse⟩ := hS.vectors v d hd
    rw [Descriptor.devices_of_forget hsame]
    exact ⟨(hvalid.of_differs h.memory).of_forget hsame, huse⟩
  · obtain ⟨d, hd, hsame⟩ := h.exists_before hv
    obtain ⟨e, he, hsame'⟩ := h.exists_before hw
    rw [Descriptor.buffers_of_forget hsame] at hb
    rw [Descriptor.buffers_of_forget hsame']
    exact hS.apart v w d e hd he hne b hb

/-- A vector of which nothing changes holds what it has held. -/
theorem contents (h : Kept F B C S m S' m') (hS : S.Valid F m) (hv : S.vectors[v]? = some d)
    (hv' : S'.vectors[v]? = some d') (hB : ∀ b ∈ d.buffers, b ∉ B) :
    d'.contents m' = d.contents m := by
  obtain ⟨d₁, hd₁, hsame⟩ := h.exists_before hv'
  obtain rfl := Option.some_inj.mp (hv.symm.trans hd₁)
  rw [Descriptor.contents_of_forget hsame,
    (hS.vectors v d hv).1.contents_of_differs h.memory hB]

/-- An operation inside one vector. -/
theorem of_touched (hS : S.Valid F m) (hv : S.vectors[v]? = some d)
    (h : Descriptor.Touched B C d m d' m') :
    Kept F B C S m { S with vectors := S.vectors.setIfInBounds v d' } m' := by
  refine ⟨fun w => ?_, h.memory, hS.sessions⟩
  obtain ⟨hlt, -⟩ := Array.getElem?_eq_some_iff.mp hv
  by_cases hw : v = w
  · subst hw
    simp only
    rw [Array.getElem?_setIfInBounds_self_of_lt hlt, hv, Option.map_some, Option.map_some, h.same]
  · simp only
    rw [Array.getElem?_setIfInBounds_ne hw]

/-- Compiling kernels or making vectors elsewhere. -/
theorem of_session (hS : S.Valid F m) {k : SessionId} {s : Session} (hs : s.Sound F)
    (h : m.Differs B C m') :
    Kept F B C S m { S with sessions := S.sessions.setIfInBounds k s } m' := by
  refine ⟨fun _ => rfl, h, fun k' s' hs' => ?_⟩
  simp only [Array.getElem?_setIfInBounds] at hs'
  split at hs'
  · split at hs'
    · cases hs'
      exact hs
    · cases hs'
  · exact hS.sessions k' s' hs'

end Kept

namespace Stopped

variable {e : Fault}

theorem self (hS : S.Valid F m) (B : List BufferId) (C : List CellId) (e : Fault) :
    Stopped F B C S m e S m :=
  ⟨.refl hS B C, fun _ => ⟨rfl, .refl [] [] m⟩⟩

theorem valid (h : Stopped F B C S m e S' m') (hS : S.Valid F m) : S'.Valid F m' := h.1.valid hS

/-- Nothing that is there changes before. -/
theorem of_vector (hS : S.Valid F m) (hv : S.vectors[v]? = some d)
    (h : Vector.Stopped B C d m e d' m') :
    Stopped F B C S m e { S with vectors := S.vectors.setIfInBounds v d' } m' := by
  refine ⟨.of_touched hS hv h.1, fun hr => ?_⟩
  obtain ⟨rfl, hdiff⟩ := h.2 hr
  exact ⟨setIfInBounds_eq_self hv, hdiff⟩

end Stopped

section Plain

/-- The vectors of a store as plain arrays. -/
def plain (m : Memory) (S : Store) : Plain :=
  ⟨S.vectors.map fun d => (d.type, d.contents m), m.cell⟩

/-- Plain arrays are those of a store, and the host arrays are as they say. -/
structure Represents (S : Store) (m : Memory) (p : Plain) : Prop where
  vectors : p.vectors = S.vectors.map fun d => (d.type, d.contents m)
  cell : ∀ c a, p.cell c = some a → m.cell c = some a

/-- An operation has made of a store what it makes of plain arrays. -/
def Becomes (F : Fleet) (p : Option Plain) (S : Store) (m : Memory) : Prop :=
  S.Valid F m ∧ ∃ p', p = some p' ∧ Represents S m p'

theorem Represents.self (m : Memory) (S : Store) : Represents S m (S.plain m) :=
  ⟨rfl, fun _ _ h => h⟩

variable {p : Plain}

theorem Represents.getElem? (h : Represents S m p) (v : VectorId) :
    p.vectors[v]? = (S.vectors[v]?).map fun d => (d.type, d.contents m) := by
  rw [h.vectors, Array.getElem?_map]

theorem Represents.getElem?_eq_some (h : Represents S m p) (hv : S.vectors[v]? = some d) :
    p.vectors[v]? = some (d.type, d.contents m) := by
  rw [h.getElem?, hv, Option.map_some]

/-- A vector of which nothing changes stays the same plain array. -/
theorem Kept.map_eq (h : Kept F B C S m S' m') (hS : S.Valid F m)
    (hB : ∀ d, S.vectors[v]? = some d → ∀ b ∈ d.buffers, b ∉ B) :
    ((S'.vectors[v]?).map fun d => (d.type, d.contents m')) =
      (S.vectors[v]?).map fun d => (d.type, d.contents m) := by
  cases hS' : S'.vectors[v]? with
  | none =>
    have := h.vectors v
    rw [hS', Option.map_none] at this
    rw [Option.map_eq_none_iff.mp this.symm]
    rfl
  | some e' =>
    obtain ⟨e, he, hsame⟩ := h.exists_before hS'
    rw [he, Option.map_some, Option.map_some, h.contents hS he hS' (hB e he),
      Descriptor.type_of_forget hsame]

/-- An operation that changes no buffers keeps the plain arrays. -/
theorem Represents.of_kept (hp : Represents S m p) (hS : S.Valid F m)
    (h : Kept F [] [] S m S' m') : Represents S' m' p := by
  refine ⟨Array.ext_getElem? fun w => ?_, fun c a hc =>
    h.memory.cell_eq (hp.cell c a hc) List.not_mem_nil⟩
  rw [hp.getElem?, Array.getElem?_map, h.map_eq hS fun _ _ _ _ => List.not_mem_nil]

/-- An operation inside a vector changes the plain array of this vector. -/
theorem Kept.becomes_put (h : Kept F B [] S m S' m') (hS : S.Valid F m) (hp : Represents S m p)
    (hv : S.vectors[v]? = some d) (hB : B ⊆ d.buffers) {xs : List Scalar}
    (hxs : ∀ d', S'.vectors[v]? = some d' → d'.contents m' = xs) :
    Becomes F (some (p.put v d.type xs)) S' m' := by
  refine ⟨h.valid hS, _, rfl, ⟨Array.ext_getElem? fun w => ?_, fun c a hc =>
    h.memory.cell_eq (hp.cell c a hc) List.not_mem_nil⟩⟩
  rw [Plain.put, Array.getElem?_map]
  by_cases hw : v = w
  · subst hw
    obtain ⟨d', hd', hsame⟩ := h.exists_after hv
    have hlt : v < p.vectors.size :=
      (Array.getElem?_eq_some_iff.mp (hp.getElem?_eq_some hv)).1
    rw [Array.getElem?_setIfInBounds_self_of_lt hlt, hd', Option.map_some, hxs d' hd',
      Descriptor.type_of_forget hsame]
  · rw [Array.getElem?_setIfInBounds_ne hw, hp.getElem?, h.map_eq hS fun e he b hb hmem =>
      hS.apart v w d e hv he hw b (hB hmem) hb]

theorem Kept.becomes_self (h : Kept F [] [] S m S' m') (hS : S.Valid F m) (hp : Represents S m p) :
    Becomes F (some p) S' m' :=
  ⟨h.valid hS, p, rfl, hp.of_kept hS h⟩

end Plain

section Rules

variable {α μ : Type} {K : Contract μ} {bad : Fault → Store → μ → Prop} {x : μ}

@[simp] theorem vector_ensures {good : Descriptor → Store → μ → Prop} :
    (vector v).Ensures K good bad S x ↔ (∀ d, S.vectors[v]? = some d → good d S x) ∧
      (S.vectors[v]? = none → bad (.vector .unknownVector) S x) := by
  simp only [vector, Task.ensures_bind, Task.ensures_get]
  cases S.vectors[v]? <;> simp

/-- A vector that is looked up is there, and nothing is asked for. -/
theorem vector_runFrom (hv : S.vectors[v]? = some d) : (vector v).runFrom S = pure (.ok d, S) := by
  rw [vector, Task.runFrom_bind_of_ok (Task.runFrom_get S)]
  simp only [hv]
  rfl

@[simp] theorem session_ensures {k : SessionId} {good : Session → Store → μ → Prop} :
    (session k).Ensures K good bad S x ↔ (∀ s, S.sessions[k]? = some s → good s S x) ∧
      (S.sessions[k]? = none → bad (.vector .unknownSession) S x) := by
  simp only [session, Task.ensures_bind, Task.ensures_get]
  cases S.sessions[k]? <;> simp

/-- A task inside a vector, which has to be there. -/
@[simp] theorem onVector_ensures {t : Task Descriptor α} {good : α → Store → μ → Prop} :
    (onVector v t).Ensures K good bad S x ↔
      (∀ d, S.vectors[v]? = some d → t.Ensures K
        (fun a d' x' => good a { S with vectors := S.vectors.setIfInBounds v d' } x')
        (fun e d' x' => bad e { S with vectors := S.vectors.setIfInBounds v d' } x') d x) ∧
      (S.vectors[v]? = none → bad (.vector .unknownVector) S x) := by
  simp only [onVector, Task.ensures_bind, vector_ensures, Task.ensures_zoom]

/-- A task inside a vector that is there. -/
theorem onVector_ensures_of_some (hv : S.vectors[v]? = some d) {t : Task Descriptor α}
    {good : α → Store → μ → Prop} :
    (onVector v t).Ensures K good bad S x ↔ t.Ensures K
      (fun a d' x' => good a { S with vectors := S.vectors.setIfInBounds v d' } x')
      (fun e d' x' => bad e { S with vectors := S.vectors.setIfInBounds v d' } x') d x := by
  simp [hv]

/-- A task inside a session, which has to be there. -/
@[simp] theorem onSession_ensures {k : SessionId} {t : Task Session α}
    {good : α → Store → μ → Prop} :
    (onSession k t).Ensures K good bad S x ↔
      (∀ s, S.sessions[k]? = some s → t.Ensures K
        (fun a s' x' => good a { S with sessions := S.sessions.setIfInBounds k s' } x')
        (fun e s' x' => bad e { S with sessions := S.sessions.setIfInBounds k s' } x') s x) ∧
      (S.sessions[k]? = none → bad (.vector .unknownSession) S x) := by
  simp only [onSession, Task.ensures_bind, session_ensures, Task.ensures_zoom]

/-- A vector that is put where it is changes nothing. -/
theorem put_self (hv : S.vectors[v]? = some d) :
    { S with vectors := S.vectors.setIfInBounds v d } = S := by
  rw [setIfInBounds_eq_self hv]

theorem getElem?_put (hv : S.vectors[v]? = some d) :
    (S.vectors.setIfInBounds v d')[v]? = some d' :=
  Array.getElem?_setIfInBounds_self_of_lt (Array.getElem?_eq_some_iff.mp hv).1

end Rules

end Store

end DistributedVector
