import DistributedVector.Proofs.Resize
import DistributedVector.Proofs.Slices

/-!
# Runs of operations

Operations follow one another on a store, and in between the host works on its arrays and opens
sessions. Every one of them keeps the store valid, whether it succeeds or fails, so that all stores
that come up are valid; and an operation that succeeds does to them what it does to plain arrays.

## Main definitions

* `Operation.Fits`, `Operation.Uses`, `Operation.Free` — what an operation has to be given
* `Reachable` — the stores that come up

## Main results

* `Operation.run_ensures` — one operation
* `Reachable.valid` — all operations
-/

namespace DistributedVector

namespace Operation

/-- The host arrays that an operation is given are there, and positions on the host are in them. -/
def Fits (p : Plain) : Operation → Prop
  | construct b => p.Offers b.extent b.host
  | write _ _ _ source _ => p.Holds source
  | read _ _ _ goal _ => p.Receives goal
  | setSlice _ _ x => p.Takes x
  | copy source target _ => p.Holds source ∧ p.Holds target
  | copyRange first _ result _ => p.Reaches first ∧ p.Reaches result
  | resizeTo _ _ extent host _ => ∀ x, extent = some x → p.Offers x host
  | _ => True

/-- What an operation is given is there wherever the same host arrays are there. -/
theorem Fits.mono {p p' : Plain} {op : Operation} (h : op.Fits p)
    (hshows : ∀ view, p.Shows view → p'.Shows view) : op.Fits p' := by
  -- host arrays are all that an operation can be given that need not be there
  have hholds : ∀ c, p.Holds c → p'.Holds c := fun c hc => by
    cases c with
    | array view => exact hshows view hc
    | _ => trivial
  cases op with
  | construct b => exact ⟨fun c hc => hholds c (h.1 c hc), fun c hc => hholds c (h.2 c hc)⟩
  | write v offset count source => exact hholds source h
  | read v offset count goal =>
    cases goal with
    | array view => exact hshows view h
    | _ => trivial
  | setSlice v s x =>
    cases x with
    | data source => exact hholds source h
    | operand => trivial
  | copy source target => exact ⟨hholds source h.1, hholds target h.2⟩
  | copyRange first last result =>
    have hreaches : ∀ c : Cursor, p.Reaches c → p'.Reaches c := fun c hc => by
      cases c with
      | vector => trivial
      | host => exact ⟨hholds _ hc.1, hc.2⟩
    exact ⟨hreaches first h.1, hreaches result h.2⟩
  | resizeTo v devices x host =>
    exact fun y hy => ⟨fun c hc => hholds c ((h y hy).1 c hc),
      fun c hc => hholds c ((h y hy).2 c hc)⟩
  | _ => trivial

/-- The devices that an operation makes a vector on may be used together. -/
def Uses (F : Fleet) : Operation → Prop
  | construct b => F.inUse b.devices
  | resizeTo _ devices _ _ _ => F.inUse devices
  | _ => True

/-- There are no operator products in what an operation assigns. -/
def Free : Operation → Prop
  | setSlice _ _ x => x.Free
  | assign _ source => source.Free
  | update _ _ source => source.Free
  | _ => True

variable {V : Type} {A : Arithmetic V} {F : Fleet} {m : Memory} {S : Store} {p : Plain}

open Store

/-- An operation that has made of a store what it makes of plain arrays, and returns nothing. -/
theorem done_of_becomes {q : Option Plain} {S' : Store} {m' : Memory} (h : Becomes F q S' m') :
    ∃ q', Plain.silently q = some (.done, q') ∧ S'.Represents m' q' := by
  obtain ⟨-, q', rfl, hrep⟩ := h
  exact ⟨q', rfl, hrep⟩

/-- An operation keeps the store valid; if it succeeds, it does what it does on plain arrays. -/
theorem run_ensures (hS : S.Valid F m) (hp : S.Represents m p) {op : Operation} (hfits : op.Fits p)
    (huses : op.Uses F) :
    op.run.Ensures (deviceContract A F.suits)
      (fun a S' m' => S'.Valid F m' ∧ (op.Free →
        ∃ q, p.step A.byKernel op = some (a, q) ∧ S'.Represents m' q))
      (fun _ S' m' => S'.Valid F m') S m := by
  -- operations that return nothing, of which some may assign products
  have hdone : ∀ {t : Task Store Unit} {q : Option Plain} {free : Prop},
      t.Ensures (deviceContract A F.suits)
        (fun _ S' m' => S'.Valid F m' ∧ (free → Becomes F q S' m'))
        (fun _ S' m' => S'.Valid F m') S m →
      (do t; return .done : Task Store Answer).Ensures (deviceContract A F.suits)
        (fun a S' m' => S'.Valid F m' ∧ (free →
          ∃ q', Plain.silently q = some (a, q') ∧ S'.Represents m' q'))
        (fun _ S' m' => S'.Valid F m') S m := fun ht => by
    rw [Task.ensures_bind]
    exact ht.imp_ok fun _ _ _ h => ⟨h.1, fun hfree => done_of_becomes (h.2 hfree)⟩
  have halways : ∀ {t : Task Store Unit} {q : Option Plain}, t.Ensures (deviceContract A F.suits)
      (fun _ S' m' => Becomes F q S' m') (fun _ S' m' => S'.Valid F m') S m →
      t.Ensures (deviceContract A F.suits)
        (fun _ S' m' => S'.Valid F m' ∧ (True → Becomes F q S' m')) (fun _ S' m' => S'.Valid F m')
        S m := fun ht => ht.imp_ok fun _ _ _ h => ⟨h.1, fun _ => h⟩
  cases op with
  | construct b =>
    simp only [run, Task.ensures_bind, Task.ensures_pure]
    refine (construct_ensures hS hp huses hfits).imp_ok ?_
    intro v S' m' hpost
    obtain ⟨q, hq, hvalid, hrep⟩ := hpost
    exact ⟨hvalid, fun _ => ⟨q, hq, hrep⟩⟩
  | write v offset count source blocking =>
    rw [run, Task.ensures_bind]
    refine (write_ensures hS hp hfits).imp_ok ?_
    intro _ S' m' hpost
    obtain ⟨hvalid, q, hq, hrep⟩ := hpost
    refine ⟨hvalid, fun _ => ⟨q, ?_, hrep⟩⟩
    simp only [Plain.step]
    -- without elements the host data is not looked at
    split at hq
    next hzero =>
      cases hq
      rw [if_pos hzero]
    next hne =>
      obtain ⟨data, hdata, hwrite⟩ := Option.bind_eq_some_iff.mp hq
      rw [if_neg hne]
      simp [Plain.silently, hdata, hwrite]
  | read v offset count goal blocking =>
    rw [run, Task.ensures_bind]
    refine (onVector_read_ensures hS hp hfits).imp_ok ?_
    intro view S' m' hpost
    obtain ⟨hvalid, hview, q, hread, hrep⟩ := hpost
    simp only [Task.ensures_bind, Task.ensures_pure]
    refine Vector.contents_ensures hview fun values hvalues => ⟨hvalid, fun _ => ⟨q, ?_, hrep⟩⟩
    rw [Plain.step, hread, ← hvalues, Array.toArray_toList]
    rfl
  | get v index =>
    simp only [run, Task.ensures_bind, Task.ensures_pure]
    refine (get_ensures hS hp).imp_ok ?_
    intro x S' m' hpost
    obtain ⟨⟨hvalid, q, hq, hrep⟩, t, xs, i, hlookup, hposition, hx⟩ := hpost
    cases hq
    exact ⟨hvalid, fun _ => ⟨p, by simp [Plain.step, hlookup, hposition, hx], hrep⟩⟩
  | set v index x =>
    rw [run, Task.ensures_bind]
    refine (set_ensures hS hp).imp_ok ?_
    intro _ S' m' hpost
    obtain ⟨t, xs, i, values, hlookup, hposition, hvalues, hbecomes⟩ := hpost
    refine ⟨hbecomes.1, fun _ => ?_⟩
    obtain ⟨q, hq, hrep⟩ := done_of_becomes hbecomes
    refine ⟨q, ?_, hrep⟩
    rw [← hq]
    simp [Plain.step, hlookup, hposition, hvalues]
  | getSlice v s =>
    simp only [run, Task.ensures_bind, Task.ensures_pure]
    refine (getSlice_ensures hS hp).imp_ok ?_
    intro data S' m' hpost
    obtain ⟨⟨hvalid, q, hq, hrep⟩, t, xs, b, hlookup, hrange, rfl⟩ := hpost
    cases hq
    refine ⟨hvalid, fun _ => ⟨p, ?_, hrep⟩⟩
    simp [Plain.step, hlookup, hrange, HostData.row]
  | setSlice v s x => exact hdone (setSlice_ensures hS hp hfits)
  | iterate v =>
    simp only [run, Task.ensures_bind, Task.ensures_pure]
    refine (elements_ensures hS).imp ?_ fun _ _ _ h => h.valid hS
    intro xs S' m' hpost
    obtain ⟨rfl, hdiff, d, hv, rfl⟩ := hpost
    have hkept : Kept F [] [] S' m S' m' := .of_differs hS hdiff
    exact ⟨hkept.valid hS, fun _ => ⟨p, by simp [Plain.step, hp.getElem?_eq_some hv],
      hp.of_kept hS hkept⟩⟩
  | copy source target blocking => exact hdone (halways (copy_ensures hS hp hfits.1 hfits.2))
  | copyRange first last result blocking =>
    simp only [run, Task.ensures_bind, Task.ensures_pure]
    refine (copyRange_ensures hS hp hfits.1 hfits.2).imp_ok ?_
    intro c S' m' hpost
    obtain ⟨q, hq, hvalid, hrep⟩ := hpost
    exact ⟨hvalid, fun _ => ⟨q, hq, hrep⟩⟩
  | assign v source => exact hdone (assign_ensures_of_free hS hp)
  | update v op source => exact hdone (update_ensures hS hp)
  | resizeLike v w access => exact hdone (halways (resizeLike_ensures hS hp))
  | resizeTo v devices extent host access =>
    exact hdone (halways ((resizeTo_ensures hS hp huses hfits).imp (fun _ _ _ h => h)
      fun _ _ _ h => h.valid hS))
  | resizePreserving v size =>
    exact hdone (halways ((resizePreserving_ensures hS hp).imp (fun _ _ _ h => h)
      fun _ _ _ h => h.valid hS))
  | swap v w => exact hdone (halways (swap_ensures hS hp))

end Operation

section Runs

open Store

variable {σ V : Type} {A : Arithmetic V} {F : Fleet} {h : Handler σ}
  {view : σ → Memory} {S S' : Store} {x x' : σ}

/-- The stores that come up, with the state of what answers their calls: vectors are made and
changed by operations only, which may fail; sessions are opened with settings that are accepted, and
the host does what it likes with its arrays. -/
inductive Reachable (h : Handler σ) (view : σ → Memory) (F : Fleet) : Store → σ → Prop
  | start (x : σ) : Reachable h view F ⟨#[], #[]⟩ x
  | session {S : Store} {x : σ} (config : SessionConfig) (strategy : Option Strategy) :
    Reachable h view F S x → config.validate = .ok config →
    (strategy = none ∨ strategy = some .performance →
      ∀ devices, F.inUse devices → ∀ d ∈ devices, F.inUse [d]) →
    Reachable h view F
      { S with sessions := S.sessions.push (.create config F.hardware strategy) } x
  | host {S : Store} {x y : σ} : Reachable h view F S x → (view y).buffer = (view x).buffer →
    Reachable h view F S y
  | operation {S S' : Store} {x x' : σ} {op : Operation} {r : Except Fault Answer} :
    Reachable h view F S x → op.Fits (S.plain (view x)) → op.Uses F →
    (op.run.runFrom S).run h x = ((r, S'), x') → Reachable h view F S' x'

/-- A session that has just been opened is right. -/
theorem Session.sound_create {config : SessionConfig} {strategy : Option Strategy}
    (hconfig : config.validate = .ok config)
    (halone : strategy = none ∨ strategy = some .performance →
      ∀ devices, F.inUse devices → ∀ d ∈ devices, F.inUse [d]) :
    (Session.create config F.hardware strategy).Sound F :=
  ⟨rfl, hconfig, nofun, halone⟩

/-- Vectors that have their buffers stay valid, whatever the host does. -/
theorem Store.Valid.of_buffer_eq {m m' : Memory} (hS : S.Valid F m) (h : m'.buffer = m.buffer) :
    S.Valid F m' := by
  refine ⟨fun v d hv => ?_, hS.apart, hS.sessions⟩
  obtain ⟨hvalid, huse⟩ := hS.vectors v d hv
  refine ⟨⟨fun s hs => ⟨(hvalid.each s hs).absent, fun b hb => ?_⟩, hvalid.distinct⟩, huse⟩
  rw [h]
  exact (hvalid.each s hs).present b hb

theorem Store.Valid.empty (F : Fleet) (m : Memory) : Store.Valid F m ⟨#[], #[]⟩ :=
  ⟨by simp, by simp, by simp⟩

/-- Vectors stay valid when a session is opened. -/
theorem Store.Valid.openSession {m : Memory} {config : SessionConfig} {strategy : Option Strategy}
    (hS : S.Valid F m) (hconfig : config.validate = .ok config)
    (halone : strategy = none ∨ strategy = some .performance →
      ∀ devices, F.inUse devices → ∀ d ∈ devices, F.inUse [d]) :
    Store.Valid F m
      { S with sessions := S.sessions.push (.create config F.hardware strategy) } := by
  refine ⟨hS.vectors, hS.apart, fun k s hs => ?_⟩
  rw [Array.getElem?_push] at hs
  split at hs
  · cases hs
    exact Session.sound_create hconfig halone
  · exact hS.sessions k s hs

/-- Every store that comes up is valid. -/
theorem Reachable.valid (meets : h.Meets view (deviceContract A F.suits))
    (hreach : Reachable h view F S x) : S.Valid F (view x) := by
  induction hreach with
  | start x => exact .empty F _
  | session config strategy _ hconfig halone ih => exact ih.openSession hconfig halone
  | host _ hbuffer ih => exact ih.of_buffer_eq hbuffer
  | operation _ hfits huses hrun ih =>
    have hall := Operation.run_ensures (A := A) ih (.self _ _) hfits huses
    rename_i r _
    cases r with
    | ok a => exact (hall.of_run_ok meets hrun).1
    | error e => exact hall.of_run_error meets hrun

end Runs

end DistributedVector
