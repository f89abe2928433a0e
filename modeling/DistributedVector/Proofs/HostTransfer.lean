import DistributedVector.Proofs.Frame
import DistributedVector.Proofs.Ranges
import DistributedVector.Proofs.Refinement
import Mathlib.Algebra.Group.Int.Defs

/-!
# Transfers touch exactly their range

Writes and reads of a store move the elements of a range that lies in a vector, and ask devices for
nothing if the range, the host data or the array does not suit. A write leaves all elements outside
its range alone, and the events of all shards that own none of the range.

## Main definitions

* `Store.Moved`, `Store.Written`, `Store.ReadOff` — what transfers of a range leave
* `Store.WriteOutcome`, `Store.ReadOutcome` — what writes and reads leave in all cases

## Main results

* `Store.Written.outside` — elements outside the range of a write
* `Store.Valid.transfers_exactly` — writes and reads in all cases
-/

namespace DistributedVector

namespace Store

open DistributedVector.Vector

variable {V : Type} {A : Arithmetic V} {F : Fleet} {m : Memory} {S : Store} {v : VectorId}
  {d : Descriptor} {offset count : Int} {blocking : Bool} {ys : List Exchange}

/-- Host data that is no vector is gathered without asking devices. -/
theorem gather_exchanges {source : Collection} (hhost : ∀ w, source ≠ .vector w) :
    (gather source).Ensures .exchanging (fun _ S' ys' => S' = S ∧ ys' = ys)
    (fun _ _ _ => False) S ys := by
  cases source with
  | array view =>
    rw [gather, Vector.contents, Task.ensures_bind, Task.ensures_perform, Program.ensures_ask]
    refine ⟨trivial, ?_⟩
    rintro values _ rfl
    exact ⟨rfl, List.append_nil ys⟩
  | list values => exact ⟨rfl, rfl⟩
  | vector w => exact absurd rfl (hhost w)

/-- What host data gives, with the exchanges. -/
theorem gather_recorded (hS : S.Valid F m) {source : Collection} {data : HostData}
    (hhost : ∀ w, source ≠ .vector w) (hholds : (S.plain m).Holds source)
    (hdata : (S.plain m).collect source = some data) :
    (gather source).Ensures (deviceContract A F.suits).recorded
      (fun data' S' x => data' = data ∧ S' = S ∧ m.Differs [] [] x.1 ∧ x.2 = ys)
      (fun _ _ _ => False) S (m, ys) := by
  refine ((gather_ensures (A := A) hS (.self m S) hholds).recorded
    (gather_exchanges hhost)).imp ?_ ?_
  · rintro data' S' ⟨m', ys'⟩ ⟨⟨-, hdiff, hdata'⟩, rfl, rfl⟩
    exact ⟨Option.some_inj.mp (hdata'.symm.trans hdata), rfl, hdiff, rfl⟩
  · exact fun _ _ _ h => h.2

/-- What a transfer of a range has made of a store and asked of devices, and the fault that ended
it. Events are noted in the shards that own an element of the range, and nothing else changes. -/
def Moved {β : Type} (moves : Call → List (Place × β)) (S : Store) (v : VectorId) (d : Descriptor)
    (offset count : Int) (host : List β) (blocking : Bool) (fault : Option DeviceFault) (S' : Store)
    (ys : List Exchange) : Prop :=
  ∃ d', S' = { S with vectors := S.vectors.setIfInBounds v d' } ∧
    Ends moves d offset count host blocking [] fault d' ys ∧ d'.forget = d.forget ∧
    ∀ k, k ∉ d.touched offset count → d'.shards[k]? = d.shards[k]?

theorem Moved.of_ends {β : Type} {moves : Call → List (Place × β)} {host : List β}
    {fault : Option DeviceFault} {d' : Descriptor}
    (h : Ends moves d offset count host blocking [] fault d' ys) :
    Moved moves S v d offset count host blocking fault
      { S with vectors := S.vectors.setIfInBounds v d' } ys := by
  refine ⟨d', rfl, h, ?_⟩
  obtain ⟨starts, waits, -, -, -, rfl⟩ := h
  exact ⟨Descriptor.forget_note, fun k hk => Descriptor.getElem?_note_of_notMem hk⟩

/-- The fault that ended a transfer is the one of a command. -/
theorem Moved.firstFault_eq {β : Type} {moves : Call → List (Place × β)} {host : List β}
    {fault : Option DeviceFault} {S' : Store}
    (h : Moved moves S v d offset count host blocking fault S' ys) : firstFault ys = fault := by
  obtain ⟨d', -, ⟨starts, waits, hsplit, hfault, -⟩, -⟩ := h
  rw [hsplit]
  exact hfault

/-- What a write to a range has made of a store and its memory, and asked of devices, and the fault
that ended it. -/
def Written (S : Store) (m : Memory) (v : VectorId) (d : Descriptor) (offset count : Int)
    (values : Array Scalar) (blocking : Bool) (fault : Option DeviceFault) (S' : Store)
    (m' : Memory) (ys : List Exchange) : Prop :=
  Moved Call.stores S v d offset count values.toList blocking fault S' ys ∧
    m.Differs d.buffers [] m' ∧
    (fault = none → d.contents m' = overlay offset.toNat values.toList (d.contents m))

/-- A write to a range. -/
theorem write_recorded (hS : S.Valid F m) (hv : S.vectors[v]? = some d) {source : Collection}
    {data : HostData} {values : Array Scalar} (hhost : ∀ w, source ≠ .vector w)
    (hholds : (S.plain m).Holds source) (hdata : (S.plain m).collect source = some data)
    (hrange : InRange d offset count) (hvalues : data.elements d.type count.toNat = .ok values)
    (hsize : values.size = count.toNat) :
    (write v offset count source blocking).Ensures (deviceContract A F.suits).recorded
      (fun _ S' x => Written S m v d offset count values blocking none S' x.1 x.2)
      (fun e S' x => ∃ f, e = .device f ∧ Written S m v d offset count values blocking
        (some f) S' x.1 x.2)
      S (m, []) := by
  have hcount : count ≠ 0 := ne_of_gt hrange.2.1
  have hvalid : d.Valid m := (hS.vectors v d hv).1
  rw [write, if_neg hcount]
  -- the range is checked before host data are gathered, and again by the vector's own write
  simp only [Task.ensures_bind, onVector_ensures, Vector.checkRange, Task.ensures_get,
    ensures_orFault]
  refine ⟨fun d' hv' => ?_, fun hnone => absurd (hv.symm.trans hnone) (Option.some_ne_none _)⟩
  obtain rfl := Option.some_inj.mp (hv.symm.trans hv')
  rw [put_self hv, hrange.checkRange]
  refine ⟨fun _ _ => ?_, fun _ hrefused => by cases hrefused⟩
  refine (gather_recorded hS hhost hholds hdata).imp ?_ fun _ _ _ h => h.elim
  rintro _ _ ⟨m₁, _⟩ ⟨rfl, rfl, hdiff, rfl⟩
  refine ⟨fun d' hv' => ?_, fun hnone => absurd (hv.symm.trans hnone) (Option.some_ne_none _)⟩
  obtain rfl := Option.some_inj.mp (hv.symm.trans hv')
  have hvalid₁ : d.Valid m₁ := hvalid.of_differs hdiff
  have hafter : ∀ {m'}, m₁.Differs d.buffers [] m' → m.Differs d.buffers [] m' := fun h =>
    (hdiff.mono (List.nil_subset _) (List.nil_subset _)).trans_same h
  refine ((Vector.write_ensures hvalid₁).recorded (write_proceeds hrange hvalues hsize)).imp ?_ ?_
  · rintro _ d' ⟨m', ys'⟩ ⟨⟨htouched, -, values', hvalues', -, hcontents⟩, hends⟩
    obtain rfl : values' = values := Except.ok.inj (hvalues'.symm.trans hvalues)
    -- gathering has changed no buffer
    refine ⟨.of_ends hends, hafter htouched.memory, fun _ => ?_⟩
    rw [← Descriptor.contents_of_forget htouched.same, hcontents,
      hvalid.contents_of_differs hdiff fun _ _ => List.not_mem_nil]
  · rintro _ d' ⟨m', ys'⟩ ⟨⟨htouched, -⟩, f, rfl, hends⟩
    exact ⟨f, rfl, .of_ends hends, hafter htouched.memory, fun hfault => by cases hfault⟩

/-- A write that refuses its range or its data asks devices for nothing, and changes nothing. -/
theorem write_refused_recorded (hS : S.Valid F m) (hv : S.vectors[v]? = some d)
    {source : Collection} {data : HostData} (hhost : ∀ w, source ≠ .vector w)
    (hholds : (S.plain m).Holds source) (hdata : (S.plain m).collect source = some data)
    (hcount : count ≠ 0)
    (hbad : ∀ values, InRange d offset count → data.elements d.type count.toNat = .ok values →
      values.size < count.toNat) :
    (write v offset count source blocking).Ensures (deviceContract A F.suits).recorded
      (fun _ _ _ => False) (fun _ S' x => S' = S ∧ x.2 = []) S (m, []) := by
  rw [write, if_neg hcount]
  simp only [Task.ensures_bind, onVector_ensures, Vector.checkRange, Task.ensures_get,
    ensures_orFault]
  refine ⟨fun d' hv' => ?_, fun _ => ⟨trivial, trivial⟩⟩
  obtain rfl := Option.some_inj.mp (hv.symm.trans hv')
  rw [put_self hv]
  refine ⟨fun _ _ => ?_, fun _ _ => ⟨rfl, trivial⟩⟩
  refine (gather_recorded hS hhost hholds hdata).imp ?_ fun _ _ _ h => h.elim
  rintro _ _ ⟨m₁, _⟩ ⟨rfl, rfl, -, rfl⟩
  refine ⟨fun d' hv' => ?_, fun _ => ⟨rfl, rfl⟩⟩
  obtain rfl := Option.some_inj.mp (hv.symm.trans hv')
  refine (write_refused hcount hbad).imp (fun _ _ _ h => h) ?_
  rintro _ _ _ ⟨rfl, rfl⟩
  exact ⟨put_self hv, rfl⟩

/-- What a read of a range has made of a store and its memory, and asked of devices, the fault that
ended it, and the array. -/
def ReadOff (S : Store) (m : Memory) (v : VectorId) (d : Descriptor) (offset count : Int)
    (goal : ReadTarget) (blocking : Bool) (fault : Option DeviceFault) (array : HostView)
    (S' : Store) (m' : Memory) (ys : List Exchange) : Prop :=
  goal.Gives d.type count array ∧
    Moved Call.loads S v d offset count (slots array count) blocking fault S' ys ∧
    m.Differs [] goal.cells m' ∧
    (fault = none → goal.Filled d.type count.toNat (part offset count (d.contents m)) m array m')

/-- A read of a range. -/
theorem read_recorded (hS : S.Valid F m) (hv : S.vectors[v]? = some d) {goal : ReadTarget}
    (hgoal : goal.Valid m) (hrange : InRange d offset count) (hsuits : goal.Suits d.type)
    (hroom : goal.Holds count) :
    (onVector v (read offset count goal blocking)).Ensures (deviceContract A F.suits).recorded
      (fun array S' x => ReadOff S m v d offset count goal blocking none array S' x.1 x.2)
      (fun e S' x => ∃ f array, e = .device f ∧
        ReadOff S m v d offset count goal blocking (some f) array S' x.1 x.2) S (m, []) := by
  rw [onVector_ensures_of_some hv]
  have hvalid : d.Valid m := (hS.vectors v d hv).1
  refine ((Vector.read_ensures hvalid hgoal).recorded (read_ends hrange hsuits hroom)).imp ?_ ?_
  · rintro array d' ⟨m', ys'⟩ ⟨⟨htouched, -, hfilled⟩, hgives, hends⟩
    exact ⟨hgives, .of_ends hends, htouched.memory, fun _ => hfilled⟩
  · rintro _ d' ⟨m', ys'⟩ ⟨⟨htouched, -⟩, array, f, rfl, hgives, hends⟩
    exact ⟨f, array, rfl, hgives, .of_ends hends, htouched.memory, nofun⟩

end Store

section Outside

variable {c : Call} {q : Place} {d d' : Descriptor} {offset count : Int} {host : List Scalar}
  {blocking : Bool} {fault : Option DeviceFault} {ys : List Exchange}

theorem Call.exists_mem_stores (hwrite : c.stores ≠ []) (hstores : c.StoresAt q) :
    ∃ value, (q, value) ∈ c.stores := by
  cases c with
  | write device b offset shape data =>
    obtain ⟨j, hj, hq⟩ := List.getElem_of_mem hstores
    have hj' : j < data.toList.length := by simpa using hj
    refine ⟨data.toList[j], ?_⟩
    rw [← hq, ← List.getElem_zip (h := by simpa using hj')]
    exact List.getElem_mem _
  | _ => exact absurd rfl hwrite

/-- A write stores in its range only. -/
theorem Vector.Ends.not_storesAt (h : Ends Call.stores d offset count host blocking [] fault d' ys)
    (hq : q ∉ (part offset count d.places).map (·.2)) : ∀ y ∈ ys, ¬ y.1.StoresAt q := by
  obtain ⟨starts, waits, rfl, -, ⟨commands, htransfers, hstarted, hwaited⟩, -⟩ := h
  intro y hy hstores
  rw [List.nil_append] at hy
  rcases List.mem_append.mp hy with hy | hy
  · have hc : y.1 ∈ commands := hstarted.isPrefix.subset (List.mem_map_of_mem hy)
    obtain ⟨i, hi⟩ := List.getElem?_of_mem hc
    obtain ⟨k, -, hwrite, -⟩ := getElem?_of_forall₂ htransfers.shards.flip hi
    obtain ⟨value, hvalue⟩ := Call.exists_mem_stores hwrite hstores
    have hmem : (q, value) ∈ commands.flatMap Call.stores := List.mem_flatMap.mpr ⟨y.1, hc, hvalue⟩
    rw [htransfers.elements] at hmem
    exact hq (List.of_mem_zip hmem).1
  · -- what follows are waits
    have hc := hwaited.isPrefix.subset (List.mem_map_of_mem hy)
    split at hc
    · obtain ⟨y', -, hwait⟩ := List.mem_filterMap.mp hc
      obtain ⟨device, -, e⟩ := Option.bind_eq_some_iff.mp hwait
      obtain ⟨e, -, he⟩ := Option.map_eq_some_iff.mp e
      rw [← he] at hstores
      exact hstores
    · exact List.not_mem_nil hc

end Outside

open DistributedVector.Vector in
/-- What a write from the host leaves: a result, a store, a memory, and the exchanges with devices.
Nothing happens for no elements. A range that leaves the vector, too few numbers, and numbers that
do not fit are refused before devices are asked for anything. Otherwise the elements of the range
are moved, and no other one changes, if commands that fail leave their memory alone. -/
structure Store.WriteOutcome (gentle : Prop) (S : Store) (m : Memory) (v : VectorId)
    (d : Descriptor) (offset count : Int) (data : HostData) (blocking : Bool)
    (r : Except Fault Unit) (S' : Store) (m' : Memory) (ys : List Exchange) : Prop where
  empty : count = 0 → r = .ok () ∧ S' = S ∧ ys = []
  refused : count ≠ 0 → ¬ InRange d offset count ∨ data.values.size < count ∨
    (∃ f, data.elements d.type count.toNat = .error f) → (∃ e, r = .error e) ∧ S' = S ∧ ys = []
  moved : ∀ values, InRange d offset count → count ≤ data.values.size →
    data.elements d.type count.toNat = .ok values → r = unlessFailed () ys ∧
      Written S m v d offset count values blocking (firstFault ys) S' m' ys ∧
      (firstFault ys = none ∨ gentle → ∀ i, i < offset.toNat ∨ offset.toNat + count.toNat ≤ i →
        (d.contents m')[i]? = (d.contents m)[i]?)

open DistributedVector.Vector in
/-- What a read leaves: a result, a store, a memory, and the exchanges with devices. An array that
does not suit is refused first. Nothing happens for no elements. A range that leaves the vector, and
an array with too little room, are refused before devices are asked for anything. Otherwise the
elements of the range are moved. -/
structure Store.ReadOutcome (S : Store) (m : Memory) (v : VectorId) (d : Descriptor)
    (offset count : Int) (goal : ReadTarget) (blocking : Bool) (r : Except Fault HostView)
    (S' : Store) (m' : Memory) (ys : List Exchange) : Prop where
  unsuitable : ¬ goal.Suits d.type → (∃ e, r = .error e ∧ e.kind = .value) ∧ S' = S ∧ ys = []
  empty : goal.Suits d.type → count = 0 →
    (∃ array, r = .ok array ∧ goal.Gives d.type 0 array) ∧ S' = S ∧ ys = []
  refused : goal.Suits d.type → count ≠ 0 → ¬ InRange d offset count ∨ ¬ goal.Holds count →
    (∃ e, r = .error e) ∧ S' = S ∧ ys = []
  moved : goal.Suits d.type → InRange d offset count → goal.Holds count →
    ∃ array, r = unlessFailed array ys ∧
      ReadOff S m v d offset count goal blocking (firstFault ys) array S' m' ys

section Runs

open Store DistributedVector.Vector

variable {α σ V : Type} {A : Arithmetic V} {F : Fleet} {h : Handler σ} {view : σ → Memory} {x : σ}
  {S : Store} {v : VectorId} {d : Descriptor}

/-- A write whose commands leave their memory alone when they fail changes no element outside its
range. -/
theorem Store.Written.outside (meets : h.Meets view (deviceContract A F.suits))
    (gentle : h.Gentle view) (hS : S.Valid F (view x)) (hv : S.vectors[v]? = some d)
    {offset count : Int} {source : Collection} {values : Array Scalar} {blocking : Bool}
    {fault : Option DeviceFault} {r : Except Fault Unit} {S' : Store} {x' : σ}
    (hholds : (S.plain (view x)).Holds source)
    (hrun : ((write v offset count source blocking).runFrom S).run h x = ((r, S'), x'))
    (hwritten : Written S (view x) v d offset count values blocking fault S' (view x')
      ((write v offset count source blocking).commands h S x)) {i : Nat}
    (hi : i < offset.toNat ∨ offset.toNat + count.toNat ≤ i) :
    (d.contents (view x'))[i]? = (d.contents (view x))[i]? := by
  have hvalid : d.Valid (view x) := (hS.vectors v d hv).1
  -- places and not positions are followed, since commands name places
  obtain ⟨⟨d', -, hends, -⟩, hdiff, -⟩ := hwritten
  refine getElem?_contents_of_places hvalid (hvalid.of_differs hdiff) (fun p hp hout => ?_) hi
  have hwrite : (write v offset count source blocking).Ensures
      (deviceContract A F.suits) _ _ S (view x) :=
    Store.write_ensures hS (.self (view x) S) hholds
  have hkeeps := Program.Ensures.element_eq meets gentle hwrite (inside_of_mem_places hvalid hp)
    fun y hy _ hstores => hends.not_storesAt hout y ?_ hstores
  · rwa [hrun] at hkeeps
  · -- what stores is asked of a device
    refine List.mem_filter.mpr ⟨hy, ?_⟩
    obtain ⟨c, r⟩ := y
    cases c with
    | write | copy | launch => rfl
    | _ => exact hstores.elim

variable (meets : h.Meets view (deviceContract A F.suits)) (hS : S.Valid F (view x))
  (hv : S.vectors[v]? = some d)
include meets hS hv

/-- Writes from arrays and lists of the host, in all cases. -/
theorem Store.Valid.write_outcome {offset count : Int} {source : Collection} {data : HostData}
    {blocking : Bool} {r : Except Fault Unit} {S' : Store} {x' : σ}
    (hhost : ∀ w, source ≠ .vector w) (hholds : (S.plain (view x)).Holds source)
    (hdata : (S.plain (view x)).collect source = some data)
    (hrun : ((write v offset count source blocking).runFrom S).run h x = ((r, S'), x'))
    {ys : List Exchange} (hys : (write v offset count source blocking).commands h S x = ys) :
    WriteOutcome (h.Gentle view) S (view x) v d offset count data blocking r S' (view x') ys := by
  refine ⟨?_, fun hcount hbad => ?_, fun values hrange henough hvalues => ?_⟩
  · rintro rfl
    rw [write, if_pos rfl] at hrun hys
    cases hrun
    exact ⟨rfl, rfl, hys.symm⟩
  · have hbad' : ∀ values, InRange d offset count → data.elements d.type count.toNat = .ok values →
        values.size < count.toNat := by
      intro values hrange hvalues
      have := size_of_elements hvalues
      have := hrange.2.1
      rcases hbad with hnot | hshort | ⟨f, hf⟩
      · exact absurd hrange hnot
      · omega
      · cases hvalues.symm.trans hf
    have hpost := (write_refused_recorded (A := A) hS hv hhost hholds hdata hcount
      hbad').of_run_recorded meets hrun
    cases r with
    | ok a => exact hpost.elim
    | error e =>
      obtain ⟨rfl, hnone⟩ := hpost
      exact ⟨⟨e, rfl⟩, rfl, hys.symm.trans hnone⟩
  · have hlength : values.size = count.toNat := by
      have := size_of_elements hvalues
      omega
    have hpost := (write_recorded (A := A) hS hv hhost hholds hdata hrange hvalues
      hlength).of_run_recorded meets hrun
    rw [hys] at hpost
    obtain ⟨hr, hwritten⟩ : r = unlessFailed () ys ∧
        Written S (view x) v d offset count values blocking (firstFault ys) S' (view x') ys := by
      cases r with
      | ok a =>
        have hfault := hpost.1.firstFault_eq
        rw [unlessFailed_of_none hfault, hfault]
        exact ⟨rfl, hpost⟩
      | error e =>
        obtain ⟨f, rfl, hpost⟩ := hpost
        have hfault := hpost.1.firstFault_eq
        rw [unlessFailed_of_some hfault, hfault]
        exact ⟨rfl, hpost⟩
    refine ⟨hr, hwritten, ?_⟩
    -- a write that returns is an overlay; else no accepted command stores outside its range
    rintro (hnone | gentle) i hi
    · rw [hwritten.2.2 hnone, overlay, getElem?_revise, placed_outside (by simp [hlength]; omega)]
      simp
    · subst hys
      exact hwritten.outside meets gentle hS hv hholds hrun hi

/-- A read that asks devices for nothing changes nothing. -/
theorem Store.Valid.read_idle {offset count : Int} {goal : ReadTarget} {blocking : Bool}
    {r : Except Fault HostView} {S' : Store} {x' : σ} (hgoal : goal.Valid (view x))
    (hrun : ((onVector v (read offset count goal blocking)).runFrom S).run h x = ((r, S'), x'))
    {ys : List Exchange} (hys : (onVector v (read offset count goal blocking)).commands h S x = ys)
    {good : HostView → Prop} {bad : Fault → Prop}
    (hread : (read offset count goal blocking).Ensures .exchanging
      (fun a d' ys' => (d' = d ∧ ys' = []) ∧ good a)
      (fun e d' ys' => (d' = d ∧ ys' = []) ∧ bad e) d []) :
    (S' = S ∧ ys = []) ∧ (∀ a, r = .ok a → good a) ∧ ∀ e, r = .error e → bad e := by
  have hvalid : d.Valid (view x) := (hS.vectors v d hv).1
  have hstore : (onVector v (read offset count goal blocking)).Ensures
    (deviceContract A F.suits).recorded
      (fun a S'' y => (S'' = S ∧ y.2 = []) ∧ good a) (fun e S'' y => (S'' = S ∧ y.2 = []) ∧ bad e)
      S (view x, []) := by
    rw [onVector_ensures_of_some hv]
    refine ((Vector.read_ensures (A := A) hvalid hgoal).recorded hread).imp ?_ ?_
    · rintro a d' ⟨m', ys'⟩ ⟨-, ⟨rfl, hnone⟩, hgood⟩
      exact ⟨⟨put_self hv, hnone⟩, hgood⟩
    · rintro e d' ⟨m', ys'⟩ ⟨-, ⟨rfl, hnone⟩, hbad⟩
      exact ⟨⟨put_self hv, hnone⟩, hbad⟩
  have hpost := hstore.of_run_recorded meets hrun
  rw [hys] at hpost
  cases r with
  | ok a => exact ⟨hpost.1, fun _ ha => Except.ok.inj ha ▸ hpost.2, nofun⟩
  | error e => exact ⟨hpost.1, nofun, fun _ he => Except.error.inj he ▸ hpost.2⟩

/-- Reads into arrays of the host, in all cases. -/
theorem Store.Valid.read_outcome {offset count : Int} {goal : ReadTarget} {blocking : Bool}
    {r : Except Fault HostView} {S' : Store} {x' : σ} (hgoal : goal.Valid (view x))
    (hrun : ((onVector v (read offset count goal blocking)).runFrom S).run h x = ((r, S'), x'))
    {ys : List Exchange}
    (hys : (onVector v (read offset count goal blocking)).commands h S x = ys) :
    ReadOutcome S (view x) v d offset count goal blocking r S' (view x') ys := by
  -- the array is looked at first, whatever the count
  refine ⟨fun hnot => ?_, fun hsuits hzero => ?_, fun hsuits hcount hbad => ?_,
    fun hsuits hrange hroom => ?_⟩
  · obtain ⟨hsame, hok, herror⟩ := hS.read_idle meets hv hgoal hrun hys
      (read_refused fun hsuits => absurd hsuits hnot)
    refine ⟨?_, hsame⟩
    cases r with
    | ok a => exact (hok a rfl).elim
    | error e => exact ⟨e, rfl, congrArg Fault.kind (herror e rfl hnot)⟩
  · subst hzero
    obtain ⟨hsame, hok, herror⟩ := hS.read_idle meets hv hgoal hrun hys (read_empty hsuits)
    refine ⟨?_, hsame⟩
    cases r with
    | ok a => exact ⟨a, rfl, hok a rfl⟩
    | error e => exact (herror e rfl).elim
  · obtain ⟨hsame, hok, -⟩ := hS.read_idle meets hv hgoal hrun hys
      (read_refused fun _ => ⟨hcount, fun hrange => hbad.resolve_left fun h => h hrange⟩)
    refine ⟨?_, hsame⟩
    cases r with
    | ok a => exact (hok a rfl).elim
    | error e => exact ⟨e, rfl⟩
  · have hpost := (read_recorded (A := A) hS hv hgoal hrange hsuits
      hroom).of_run_recorded meets hrun
    rw [hys] at hpost
    cases r with
    | ok array =>
      have hfault := hpost.2.1.firstFault_eq
      refine ⟨array, (unlessFailed_of_none hfault).symm, ?_⟩
      rw [hfault]
      exact hpost
    | error e =>
      obtain ⟨f, array, rfl, hpost⟩ := hpost
      have hfault := hpost.2.1.firstFault_eq
      refine ⟨array, (unlessFailed_of_some hfault).symm, ?_⟩
      rw [hfault]
      exact hpost

/-- Writes from arrays and lists of the host, and reads into arrays, touch exactly their range,
which lies inside the buffers of the vector. -/
theorem Store.Valid.transfers_exactly :
    (∀ p ∈ d.places, p.2.Inside (view x)) ∧
    (∀ offset count source data blocking r S' x', (∀ w, source ≠ .vector w) →
      (S.plain (view x)).Holds source → (S.plain (view x)).collect source = some data →
      ((write v offset count source blocking).runFrom S).run h x = ((r, S'), x') →
      WriteOutcome (h.Gentle view) S (view x) v d offset count data blocking r S' (view x')
        ((write v offset count source blocking).commands h S x)) ∧
    ∀ offset count goal blocking r S' x', goal.Valid (view x) →
      ((onVector v (read offset count goal blocking)).runFrom S).run h x = ((r, S'), x') →
      ReadOutcome S (view x) v d offset count goal blocking r S' (view x')
        ((onVector v (read offset count goal blocking)).commands h S x) := by
  refine ⟨fun p hp => inside_of_mem_places (hS.vectors v d hv).1 hp, ?_, ?_⟩
  · intro offset count source data blocking r S' x' hhost hholds hdata hrun
    exact hS.write_outcome meets hv hhost hholds hdata hrun rfl
  · intro offset count goal blocking r S' x' hgoal hrun
    exact hS.read_outcome meets hv hgoal hrun rfl

end Runs

/-- Two elements are written to a vector on two devices, and two are read. -/
theorem Store.Valid.transfers_exactly_sample : ∃ d r S' x' r' S'' x'',
    Sample.vectors.1.vectors[0]? = some d ∧ d.touched 0 2 = [0, 1] ∧
    Sample.run (Store.write 0 0 2 (.list [.int 5, .int 6]) true) Sample.vectors = ((r, S'), x') ∧
    Store.WriteOutcome (Machine.Executing.handle.Gentle Machine.Executing.memory) Sample.vectors.1
      Sample.vectors.2.memory 0 d 0 2 (.ofList [.int 5, .int 6]) true r S' x'.memory
      ((Store.write 0 0 2 (.list [.int 5, .int 6]) true).commands Machine.Executing.handle
        Sample.vectors.1 Sample.vectors.2) ∧
    Sample.run (Store.onVector 0 (Vector.read 0 2 .fresh true)) Sample.vectors = ((r', S''), x'') ∧
    Store.ReadOutcome Sample.vectors.1 Sample.vectors.2.memory 0 d 0 2 .fresh true r' S'' x''.memory
      ((Store.onVector 0 (Vector.read 0 2 .fresh true)).commands Machine.Executing.handle
        Sample.vectors.1 Sample.vectors.2) := by
  have hvalid := Sample.reachable_vectors.valid (Machine.Executing.meets _)
  obtain ⟨d, hd⟩ : ∃ d, Sample.vectors.1.vectors[0]? = some d := ⟨_, rfl⟩
  have htouched : d.touched 0 2 = [0, 1] := by
    cases hd
    rfl
  obtain ⟨-, hwrites, hreads⟩ := Store.Valid.transfers_exactly (Machine.Executing.meets _)
    hvalid hd
  exact ⟨d, _, _, _, _, _, _, hd, htouched, rfl,
    hwrites 0 2 (.list [.int 5, .int 6]) _ true _ _ _ nofun trivial rfl rfl, rfl,
    hreads 0 2 .fresh true _ _ _ trivial rfl⟩

namespace Sample

/-- Two devices, the first of which cannot be written. -/
def unwritable : Machine.Executing :=
  ⟨.initial #[⟨[(.write, ⟨0, .unknown, "", none⟩)], none, true, 0⟩, ⟨[], none, true, 0⟩],
    fun i d hd => by
      match i, hd with
      | 0, hd =>
        cases hd
        rfl
      | 1, hd =>
        cases hd
        rfl⟩

/-- A vector on these devices. -/
def unwritten : Store × Machine.Executing := after three (store, unwritable)

end Sample

/-- A write of two numbers to a range on both devices may ask devices for nothing, if one of the
numbers has more bits than all types, and stops at the first device if that fails. -/
theorem Store.write_short_of_range : ∃ d S' x' e,
    Sample.unwritten.1.vectors[0]? = some d ∧ Vector.InRange d 0 2 ∧ d.touched 0 2 = [0, 1] ∧
    Sample.run (Store.write 0 0 2 (.list [.int 5, .int (2 ^ 70)]) true) Sample.unwritten =
      ((.error (.number .overflow), S'), x') ∧
    (Store.write 0 0 2 (.list [.int 5, .int (2 ^ 70)]) true).commands Machine.Executing.handle
      Sample.unwritten.1 Sample.unwritten.2 = [] ∧
    (Store.write 0 0 2 (.list [.int 5, .int 6]) true).commands Machine.Executing.handle
      Sample.unwritten.1 Sample.unwritten.2 = [⟨.write 0 (some 1) 0 [1] #[.int 5], .error e⟩] :=
  ⟨_, _, _, _, rfl, by decide, rfl, rfl, rfl, rfl⟩

end DistributedVector
