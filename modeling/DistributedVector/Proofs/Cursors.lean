import DistributedVector.Proofs.HostTransfer
import DistributedVector.Proofs.Representation
import DistributedVector.Store.Cursor

/-!
# Positions, elements and boundaries agree

A position is assigned to a shard in three ways: boundaries are counted when a position is made,
shards are passed one by one when it moves forward, and boundaries are counted again when an element
is looked up by its index. However many boundaries are the same, all of them find the one shard that
holds the element. A vector that is read at a position that moves from the first element to the end
is read once at each index.

## Main definitions

* `Descriptor.Owns` — a shard lies around an index
* `ElementRef.Names` — a reference is to the element at an index

## Main results

* `VectorCursor.advance_eq` — one step forward leads where a position would be made
* `Store.iterate_eq` — iteration reads every index once, in order
* `Store.iterate_eq_elements` — iteration gives what reading the elements one after the other gives
* `Store.Valid.positions_agree` — positions, references and iteration
-/

namespace DistributedVector

/-! ## Counting boundaries

Boundaries are in order, so those up to a position stand in front of all others. Counting them and
passing them one by one therefore end at the same shard, or both at the last one. -/

section Boundaries

variable {bs : List Nat} {position : Int}

/-- Where the first boundary lies behind a position, all boundaries do. -/
theorem countP_eq_zero_of_lt {b : Nat} (hsorted : (b :: bs).Pairwise (· ≤ ·)) (hb : position < b) :
    (b :: bs).countP (fun (b : Nat) => decide ((b : Int) ≤ position)) = 0 := by
  rw [List.countP_eq_zero]
  refine List.forall_mem_cons.mpr ⟨by simpa using hb, fun b' hb' => ?_⟩
  have := (List.pairwise_cons.mp hsorted).1 b' hb'
  simp
  omega

/-- Boundaries up to a position stand before all others. -/
theorem le_of_mem_take_of_le_countP (hsorted : bs.Pairwise (· ≤ ·)) {k : Nat}
    (hk : k ≤ bs.countP fun (b : Nat) => decide ((b : Int) ≤ position)) :
    ∀ b ∈ bs.take k, (b : Int) ≤ position := by
  induction bs generalizing k with
  | nil => simp
  | cons b rest ih =>
    cases k with
    | zero => simp
    | succ k =>
      by_cases hb : (b : Int) ≤ position
      · rw [List.countP_cons_of_pos (by simpa using hb)] at hk
        rw [List.take_succ_cons]
        exact List.forall_mem_cons.mpr ⟨hb, ih hsorted.tail (Nat.le_of_succ_le_succ hk)⟩
      · rw [countP_eq_zero_of_lt hsorted (Int.not_le.mp hb)] at hk
        exact absurd hk (Nat.not_succ_le_zero k)

/-- Passing shards one by one leads as far as counting the boundaries behind them. -/
theorem advanceShard_eq (hsorted : bs.Pairwise (· ≤ ·)) {last shard : Nat} (hshard : shard ≤ last) :
    advanceShard position last shard bs =
      min (shard + bs.countP fun (b : Nat) => decide ((b : Int) ≤ position)) last := by
  induction bs generalizing shard with
  | nil => simp [advanceShard, hshard]
  | cons b rest ih =>
    rw [advanceShard]
    split
    next hpasses =>
      rw [ih hsorted.tail hpasses.1, List.countP_cons_of_pos (by simpa using hpasses.2),
        Nat.succ_add_eq_add_succ]
    next hstays =>
      -- the last shard is reached, or the boundary behind the shard is further than the position
      rcases Nat.eq_or_lt_of_le hshard with rfl | hlt
      · exact (Nat.min_eq_right (Nat.le_add_right _ _)).symm
      · have hbehind : position < b := Int.not_le.mp fun hb => hstays ⟨hlt, hb⟩
        rw [countP_eq_zero_of_lt hsorted hbehind, Nat.add_zero, Nat.min_eq_left hshard]

end Boundaries

namespace Descriptor

variable {d : Descriptor} {position : Int}

/-- The first boundary lies at or before every position that is not negative. -/
theorem boundariesUpTo_pos (h : 0 ≤ position) : 0 < d.boundariesUpTo position := by
  rw [boundariesUpTo, List.countP_pos_iff]
  refine ⟨0, List.mem_of_getElem? (getElem?_boundaries (Nat.zero_le _)), ?_⟩
  simpa using h

/-- The boundaries up to a position are among those up to a later one. -/
theorem boundariesUpTo_eq_add {k : Nat} (hk : k ≤ d.boundariesUpTo position) {later : Int}
    (hlater : position ≤ later) : d.boundariesUpTo later =
      k + (d.boundaries.drop k).countP fun (b : Nat) => decide ((b : Int) ≤ later) := by
  have htaken : (d.boundaries.take k).countP (fun (b : Nat) => decide ((b : Int) ≤ later)) = k := by
    have hall := le_of_mem_take_of_le_countP d.pairwise_boundaries hk
    have hlength : k ≤ d.boundaries.length := hk.trans List.countP_le_length
    rw [List.countP_eq_length.mpr fun b hb => ?_, List.length_take, Nat.min_eq_left hlength]
    simpa using (hall b hb).trans hlater
  conv_lhs => rw [boundariesUpTo, ← List.take_append_drop k d.boundaries,
    List.countP_append, htaken]

end Descriptor

/-- One step forward from a position leads to the position that is made there. -/
theorem VectorCursor.advance_eq {d : Descriptor} {v : VectorId} {position : Int}
    (h : 0 ≤ position) : (⟨v, position, d.shardAt position⟩ : VectorCursor).advance d =
      ⟨v, position + 1, d.shardAt (position + 1)⟩ := by
  have hpos : 0 < d.boundariesUpTo position := Descriptor.boundariesUpTo_pos h
  -- the boundaries that are left out have been counted for the position before
  have hbehind : d.shardAt position + 1 ≤ d.boundariesUpTo position := by
    rw [Descriptor.shardAt]
    omega
  have hshard : advanceShard (position + 1) (d.shards.length - 1) (d.shardAt position)
      (d.boundaries.drop (d.shardAt position + 1)) = d.shardAt (position + 1) := by
    have hlast : d.shardAt position ≤ d.shards.length - 1 := Nat.min_le_right _ _
    rw [advanceShard_eq d.pairwise_boundaries.drop hlast,
      Descriptor.shardAt.eq_def d (position + 1),
      Descriptor.boundariesUpTo_eq_add hbehind (Int.le_add_one (Int.le_refl position))]
    congr 1
    omega
  rw [advance, hshard]

/-! ## Positions of a store -/

section Runs

variable {α β τ : Type}

/-- Programs that go on alike after every value that is ensured are the same. -/
theorem Program.Ensures.bind_congr {p : Program α} {good : α → Unit → Prop} {f g : α → Program β}
    (hp : p.Ensures .any good ()) (h : ∀ a, good a () → f a = g a) : p >>= f = p >>= g := by
  induction p with
  | pure a => exact h a hp
  | call c next ih => exact congrArg (call c) (funext fun r => ih r (hp.2 r () trivial))

/-- Behind a task that leaves its state alone the rest runs from the same state. -/
theorem Task.Within.runFrom_bind_congr {t : Task τ α} (ht : t.Within (· = ·))
    {f g : α → Task τ β} {s : τ}
    (h : ∀ a, (f a).runFrom s = (g a).runFrom s) : (t >>= f).runFrom s = (t >>= g).runFrom s := by
  rw [runFrom_bind, runFrom_bind]
  refine Program.Ensures.bind_congr (ht s) ?_
  rintro ⟨e | a, s'⟩ hs
  · rfl
  · obtain rfl : s = s' := hs
    exact h a

end Runs

namespace Store

variable {S : Store} {v : VectorId} {d : Descriptor} (hv : S.vectors[v]? = some d)
include hv

theorem cursorAt_runFrom (position : Int) :
    (cursorAt v position).runFrom S = pure (.ok ⟨v, position, d.shardAt position⟩, S) :=
  Task.runFrom_bind_of_ok (vector_runFrom hv)

theorem shift_runFrom (c : VectorCursor) (hc : c.vector = v) (offset : Int) :
    (shift (.vector c) offset).runFrom S =
      pure (.ok (.vector ⟨v, c.position + offset, d.shardAt (c.position + offset)⟩), S) := by
  subst hc
  exact Task.runFrom_bind_of_ok (cursorAt_runFrom hv _)

/-- Moving forward step by step leads where a position would be made. -/
theorem advanceBy_runFrom {position : Int} (h : 0 ≤ position) (n : Nat) :
    (advanceBy n ⟨v, position, d.shardAt position⟩).runFrom S =
      pure (.ok ⟨v, position + n, d.shardAt (position + n)⟩, S) := by
  induction n generalizing position with
  | zero => simp [advanceBy]
  | succ n ih =>
    rw [advanceBy, Task.runFrom_bind_of_ok (vector_runFrom hv), VectorCursor.advance_eq h,
      ih (by omega), Int.add_assoc, Int.add_comm 1]
    rfl

end Store

/-! ## References -/

/-- The shard of a number lies around an index. -/
def Descriptor.Owns (d : Descriptor) (k i : Nat) : Prop :=
  ∃ first last, d.boundaries[k]? = some first ∧ d.boundaries[k + 1]? = some last ∧
    first ≤ i ∧ i < last

/-- A reference is to the element at an index of a vector: it names the one shard around the index,
and the position counted from the boundary in front of it. The shard has a buffer that reaches
further. -/
structure ElementRef.Names (m : Memory) (v : VectorId) (d : Descriptor) (i : Nat) (e : ElementRef) :
    Prop where
  vector : e.vector = v
  owner : d.Owns e.shard i
  unique : ∀ k, d.Owns k i → k = e.shard
  position : ∃ first, d.boundaries[e.shard]? = some first ∧ e.position = (i : Int) - first
  buffer : ∃ s b buf, d.shards[e.shard]? = some s ∧ s.buffer = some b ∧ m.buffer b = some buf ∧
    buf.device = s.device ∧ e.position < buf.data.size

section References

variable {d : Descriptor} {i : Nat} {before after : List Shard} {s : Shard}

namespace Descriptor

/-- Indices count from the end if they are negative, and lie in the vector. -/
theorem position_eq_ite (d : Descriptor) (j : Int) : d.position j =
    if -(d.size : Int) ≤ j ∧ j < d.size then .ok (if j < 0 then j + d.size else j).toNat
    else .error (.index d.size) := by
  rw [position]
  refine if_congr ?_ rfl rfl
  split <;> omega

theorem Owner.lt_size (h : d.Owner i before s after) : i < d.size := by
  have hupper := h.upper
  rw [size, lengths, h.shards, List.map_append, total_append, List.map_cons, total]
  omega

theorem Owner.shardAt (h : d.Owner i before s after) : d.shardAt i = before.length := by
  have hk : before.length < d.shards.length := (List.getElem?_eq_some_iff.mp h.getElem?).1
  have hindex : d.boundariesUpTo i - 1 = before.length := h.index
  rw [Descriptor.shardAt, hindex]
  omega

theorem Owner.position (h : d.Owner i before s after) : d.position i = .ok i := by
  have hlt := h.lt_size
  rw [position_eq_ite, if_pos (by omega), if_neg (by omega), Int.toNat_natCast]

theorem Owner.names {m : Memory} (v : VectorId) (h : d.Owner i before s after)
    (hvalid : d.Valid m) :
    ElementRef.Names m v d i ⟨v, before.length, (i : Int) - total (before.map (·.length))⟩ := by
  have howns : d.Owns before.length i := ⟨_, _, h.boundaries.1, h.boundaries.2, h.lower, h.upper⟩
  have hlower := h.lower
  have hupper := h.upper
  obtain ⟨b, buf, hb, hsize, hbuf, -⟩ := (h.valid hvalid).buffer (by omega)
  refine ⟨rfl, howns, fun k hk => (existsUnique_boundaries h.lt_size).unique hk howns,
    ⟨_, h.boundaries.1, rfl⟩, s, b, _, h.getElem?, hb, hbuf, rfl, ?_⟩
  simp only [hsize]
  omega

end Descriptor

end References

namespace Store

variable {S : Store} {v : VectorId} {d : Descriptor} {i : Nat}
  {before after : List Shard} {s : Shard} (hv : S.vectors[v]? = some d)
include hv

/-- The element at a position is where its owner has it. -/
theorem deref_runFrom (ho : d.Owner i before s after) :
    (deref (.vector ⟨v, i, d.shardAt i⟩)).runFrom S =
      pure (.ok ⟨v, before.length, (i : Int) - total (before.map (·.length))⟩, S) := by
  rw [deref, Task.runFrom_bind_of_ok (a := (⟨v, i, d.shardAt i⟩ : VectorCursor)) rfl,
    Task.runFrom_bind_of_ok (vector_runFrom hv)]
  simp only [ho.shardAt, ho.boundaries.1]
  rfl

/-- An index stands for a position of the vector, or is refused. -/
theorem locate_runFrom {index : Index} {j : Int} (hindex : index.toInt = .ok j) :
    (locate v index).runFrom S = match d.position j with
      | .ok i => pure (.ok ⟨v, ownerOf d i, (i : Int) - d.starts.getD (ownerOf d i) 0⟩, S)
      | .error f => pure (.error (.vector f), S) := by
  rw [locate, Task.runFrom_bind_of_ok (vector_runFrom hv), hindex,
    Task.runFrom_bind_of_ok (a := j) rfl, Task.runFrom_bind]
  cases d.position j <;> rfl

/-- An index in the vector stands for the element that its owner has there. -/
theorem locate_runFrom_of_owner {index : Index} {j : Int} (hindex : index.toInt = .ok j)
    (hj : d.position j = .ok i) (ho : d.Owner i before s after) :
    (locate v index).runFrom S =
      pure (.ok ⟨v, before.length, (i : Int) - total (before.map (·.length))⟩, S) := by
  rw [locate_runFrom hv hindex, hj]
  simp only [ho.index, ho.start]

/-- Reading at an index is reading the element that its owner has there. -/
theorem get_runFrom (ho : d.Owner i before s after) : (get v (.int i)).runFrom S =
    (readElement ⟨v, before.length, (i : Int) - total (before.map (·.length))⟩).runFrom S := by
  rw [get, Task.runFrom_bind_of_ok (locate_runFrom_of_owner hv rfl ho.position ho)]

end Store

/-! ## Iteration

The position of the loop finds the shard that an index finds, and reading an element changes
neither. What the loop reads is therefore what is read at the indices in order, with the same
commands; a run of it is then followed from index to index. -/

namespace Store

variable {S : Store} {v : VectorId} {d : Descriptor}

/-- What leaves the vectors alone in which it may run leaves the store alone. -/
theorem onVector_same {α : Type} {t : Task Descriptor α} (ht : t.Within (· = ·)) (v : VectorId) :
    (onVector v t).Within (· = ·) := by
  intro S
  rw [onVector_ensures]
  refine ⟨fun d hv => ?_, fun _ => rfl⟩
  have hsame : ∀ d', d = d' → S = { S with vectors := S.vectors.setIfInBounds v d' } := by
    rintro _ rfl
    exact (put_self hv).symm
  exact (ht d).imp (fun _ d' _ => hsame d') fun _ d' _ => hsame d'

/-- Reading an element leaves the store alone, whatever the devices reply. -/
theorem readElement_same (e : ElementRef) : (readElement e).Within (· = ·) :=
  onVector_same (Vector.readElement_within e.shard e.position) e.vector

theorem readEach_same (d : Descriptor) (is : List Nat) : (readEach d is).Within (· = ·) := by
  induction is with
  | nil => exact Task.within_pure []
  | cons i rest ih =>
    exact (Vector.readElement_within _ _).bind fun _ => ih.bind fun _ => Task.within_pure _

variable (hv : S.vectors[v]? = some d)
include hv

/-- From a position on, iteration reads the elements at this and all later indices. -/
theorem readUpTo_eq {n i limit : Nat} (hi : i + n = d.size) (hlimit : n ≤ limit) :
    (readUpTo ⟨v, d.size, d.shardAt d.size⟩ limit ⟨v, i, d.shardAt i⟩).runFrom S =
      (do return some (← (List.range' i n).mapM fun (j : Nat) => get v (.int j)) :
        Task Store _).runFrom S := by
  induction n generalizing i limit with
  | zero =>
    obtain rfl : i = d.size := hi
    cases limit <;> simp [readUpTo, Cursor.same]
  | succ n ih =>
    cases limit with
    | zero => exact absurd hlimit (Nat.not_succ_le_zero n)
    | succ limit =>
      have hne : (Cursor.vector ⟨v, i, d.shardAt i⟩).same
          (.vector ⟨v, d.size, d.shardAt d.size⟩) = false := by
        simp [Cursor.same]
        omega
      obtain ⟨before, s, after, ho⟩ := Descriptor.exists_owner (d := d) (i := i) (by omega)
      -- the position and the index find the same element, which is read next in both
      rw [readUpTo, hne, if_neg Bool.false_ne_true, Task.runFrom_bind_of_ok (deref_runFrom hv ho),
        List.range'_succ, List.mapM_cons, bind_assoc, Task.runFrom_bind (get v (.int i)),
        get_runFrom hv ho, ← Task.runFrom_bind]
      refine (readElement_same _).runFrom_bind_congr fun x => ?_
      rw [Task.runFrom_bind_of_ok (vector_runFrom hv),
        VectorCursor.advance_eq (by omega), bind_assoc]
      have hrest := ih (i := i + 1) (by omega) (Nat.le_of_succ_le_succ hlimit)
      rw [Int.natCast_succ] at hrest
      rw [Task.runFrom_bind, hrest, ← Task.runFrom_bind]
      simp

/-- Iteration reads every index once, in order, and ends. -/
theorem iterate_eq {limit : Nat} (hlimit : d.size ≤ limit) : (iterate limit v).runFrom S =
    (do return some (← (List.range d.size).mapM fun (i : Nat) => get v (.int i)) :
      Task Store _).runFrom S := by
  rw [iterate, Task.runFrom_bind_of_ok (cursorAt_runFrom hv 0),
    Task.runFrom_bind_of_ok (vector_runFrom hv), Task.runFrom_bind_of_ok (cursorAt_runFrom hv _)]
  have hread := readUpTo_eq hv (Nat.zero_add d.size) hlimit
  rwa [← List.range_eq_range'] at hread

theorem onVector_runFrom {α : Type} (t : Task Descriptor α) : (onVector v t).runFrom S =
    t.runFrom d >>= fun r => pure (r.1, { S with vectors := S.vectors.setIfInBounds v r.2 }) :=
  Task.runFrom_bind_of_ok (vector_runFrom hv)

theorem onVector_pure_runFrom {α : Type} (a : α) :
    (onVector v (pure a)).runFrom S = (pure a : Task Store α).runFrom S := by
  rw [onVector_runFrom hv, Task.runFrom_pure, Program.pure_bind, put_self hv, Task.runFrom_pure]

/-- A sequence in a vector is a sequence of tasks in it, if the first one leaves the vector
alone. -/
theorem onVector_bind_runFrom {α β : Type} {t : Task Descriptor α} {f : α → Task Descriptor β}
    (ht : t.Within (· = ·)) :
    (onVector v (t >>= f)).runFrom S = (onVector v t >>= fun a => onVector v (f a)).runFrom S := by
  rw [Task.runFrom_bind, onVector_runFrom hv, onVector_runFrom hv, Task.runFrom_bind,
    Program.bind_assoc, Program.bind_assoc]
  refine (ht d).bind_congr ?_
  rintro ⟨e | a, d'⟩ hd
  · rfl
  · obtain rfl : d = d' := hd
    rw [Program.pure_bind, put_self hv]
    exact (onVector_runFrom hv (f a)).symm

/-- Reading elements one after the other in a vector is reading them at their indices. -/
theorem readEach_runFrom {is : List Nat} (his : ∀ i ∈ is, i < d.size) :
    (onVector v (readEach d is)).runFrom S =
    (is.mapM fun (i : Nat) => get v (.int i)).runFrom S := by
  induction is with
  | nil => exact onVector_pure_runFrom hv []
  | cons i rest ih =>
    obtain ⟨before, s, after, ho⟩ := Descriptor.exists_owner (his i List.mem_cons_self)
    simp only [readEach, ho.index, ho.start]
    rw [onVector_bind_runFrom hv (Vector.readElement_within _ _), List.mapM_cons,
      Task.runFrom_bind (get v (.int i)), get_runFrom hv ho, ← Task.runFrom_bind, readElement]
    refine (onVector_same (Vector.readElement_within _ _) v).runFrom_bind_congr fun x => ?_
    rw [onVector_bind_runFrom hv (readEach_same d rest), Task.runFrom_bind (rest.mapM _),
      ← ih fun j hj => his j (List.mem_cons_of_mem i hj), ← Task.runFrom_bind]
    exact (onVector_same (readEach_same d rest) v).runFrom_bind_congr fun xs =>
      onVector_pure_runFrom hv (x :: xs)

/-- Iteration gives what reading the elements one after the other gives. -/
theorem iterate_eq_elements {limit : Nat} (hlimit : d.size ≤ limit) :
    (iterate limit v).runFrom S = (do return some (← elements v) : Task Store _).runFrom S := by
  have hrange : ∀ i ∈ List.range d.size, i < d.size := fun i hi => List.mem_range.mp hi
  have hread := readEach_runFrom hv hrange
  rw [iterate_eq hv hlimit, Task.runFrom_bind, ← hread, ← Task.runFrom_bind, elements, bind_assoc,
    Task.runFrom_bind_of_ok (vector_runFrom hv)]

omit hv in
theorem get_same (v : VectorId) (index : Index) : (get v index).Within (· = ·) :=
  ((vector_within v).bind fun _ => (within_orFault _ _).bind fun _ =>
      (within_orFault _ _).bind fun _ =>
    Task.within_pure _).bind fun e => readElement_same e

end Store

section Reading

open Store DistributedVector.Vector

variable {V : Type} {A : Arithmetic V} {F : Fleet} {m : Memory} {S : Store} {v : VectorId}
  {d : Descriptor}

theorem Vector.shard_reports {k : Nat} (hk : k < d.shards.length) : (Vector.shard k).Reports d := by
  intro ys hys
  simp only [Task.Proceeds, Vector.shard, Task.ensures_bind, Task.ensures_get,
    List.getElem?_eq_getElem hk, Task.ensures_pure]
  exact hys

theorem Vector.contents_reports {τ : Type} {s : τ} (view : HostView) :
    (Vector.contents view : Task τ HostData).Reports s :=
  (Task.reports_perform rfl).bind fun _ _ => Task.reports_pure _

theorem Vector.newArray_reports {τ : Type} {s : τ} (type : ElementType) (n : Nat) :
    (Vector.newArray type n : Task τ HostView).Reports s :=
  (Task.reports_perform rfl).bind fun _ _ => Task.reports_pure _

/-- Reading an element of a shard of the vector fails through devices only. -/
theorem Vector.readElement_reports {k : Nat} (hk : k < d.shards.length) (position : Int) :
    (Vector.readElement k position).Reports d := by
  refine (Vector.shard_reports hk).bind fun s _ => Task.reports_get.bind fun d _ => ?_
  refine (Vector.newArray_reports d.type 1).bind fun array _ => ?_
  refine (Task.reports_read s.device s.buffer position 1 array.cell array.offset).bind fun e _ => ?_
  refine (Task.reports_wait s.device e).bind fun _ _ => ?_
  exact (Vector.contents_reports array).bind fun _ _ => Task.reports_pure _

/-- Reading a whole vector into a new array fails through devices only. -/
theorem Vector.read_reports : (Vector.read 0 d.size .fresh true).Reports d := by
  intro ys hys
  have hsuits : ReadTarget.fresh.Suits d.type := trivial
  rcases Nat.eq_zero_or_pos d.size with hzero | hpos
  · rw [hzero]
    refine (Vector.read_empty hsuits).imp ?_ fun _ _ _ h => h.2.elim
    rintro _ _ _ ⟨⟨-, rfl⟩, -⟩
    exact hys
  · have hrange : InRange d 0 d.size := ⟨Int.le_refl 0, by omega, by omega⟩
    have hroom : ReadTarget.fresh.Holds d.size := trivial
    have hends : ∀ {array fault d' ys'},
        Ends Call.loads d 0 d.size (slots array d.size) true ys fault d' ys' →
        firstFault ys' = fault := by
      rintro _ fault _ _ ⟨starts, waits, rfl, hfault, -⟩
      rw [firstFault_append, hys, hfault, Option.none_or]
    refine (Vector.read_ends hrange hsuits hroom).imp (fun _ _ _ h => hends h.2) ?_
    rintro _ _ _ ⟨array, f, rfl, -, h⟩
    exact ⟨f, rfl, hends h⟩

theorem Vector.readAll_reports : Vector.readAll.Reports d := by
  intro ys hys
  simp only [Task.Proceeds, Vector.readAll, Task.ensures_bind, Task.ensures_get]
  exact (Vector.read_reports.bind fun array _ => Vector.contents_reports array) ys hys

variable (hv : S.vectors[v]? = some d)
include hv

theorem Store.onVector_reports {α : Type} {t : Task Descriptor α} (ht : t.Reports d) :
    (onVector v t).Reports S := fun ys hys => (onVector_ensures_of_some hv).mpr (ht ys hys)

/-- Reading the element at an index returns it and leaves the store alone. -/
theorem Store.get_entry (hS : S.Valid F m) {i : Nat} (hi : i < d.size) :
    (get v (.int i)).Ensures (deviceContract A F.suits)
      (fun x S' m' => (S' = S ∧ m.Differs [] [] m') ∧ (d.contents m)[i]? = some x)
      (fun _ S' m' => S' = S ∧ m.Differs [] [] m') S m := by
  obtain ⟨before, s, after, ho⟩ := Descriptor.exists_owner hi
  have hread : (get v (.int i)).Ensures (deviceContract A F.suits)
      (fun x _ m' => m.Differs [] [] m' ∧ (d.contents m)[i]? = some x)
      (fun _ _ m' => m.Differs [] [] m')
      S m := by
    rw [Task.Ensures, get_runFrom hv ho]
    exact (onVector_ensures_of_some hv).mpr
      ((Vector.readElement_ensures (hS.vectors v d hv).1 ho).imp
      (fun _ _ _ h => h.2) fun _ _ _ h => h.1.memory)
  refine (hread.within (get_same v _)).imp ?_ ?_
  · rintro x _ m' ⟨⟨hdiff, hx⟩, rfl⟩
    exact ⟨⟨rfl, hdiff⟩, hx⟩
  · rintro e _ m' ⟨hdiff, rfl⟩
    exact ⟨rfl, hdiff⟩

theorem Store.get_reports {i : Nat} (hi : i < d.size) : (get v (.int i)).Reports S := by
  obtain ⟨before, s, after, ho⟩ := Descriptor.exists_owner hi
  have hk : before.length < d.shards.length := (List.getElem?_eq_some_iff.mp ho.getElem?).1
  intro ys hys
  rw [Task.Proceeds, Task.Ensures, get_runFrom hv ho]
  exact Store.onVector_reports hv (Vector.readElement_reports hk _) ys hys

/-- Elements read one after the other are those at the indices. -/
theorem Store.mapM_get_ensures (hS : S.Valid F m) {is : List Nat} (his : ∀ i ∈ is, i < d.size) :
    (is.mapM fun (i : Nat) => get v (.int i)).Ensures (deviceContract A F.suits)
      (fun xs S' m' => (S' = S ∧ m.Differs [] [] m') ∧
        List.Forall₂ (fun i x => (d.contents m)[i]? = some x) is xs)
      (fun _ S' m' => S' = S ∧ m.Differs [] [] m') S m := by
  induction is generalizing m with
  | nil => exact ⟨⟨rfl, .refl _ _ _⟩, .nil⟩
  | cons i rest ih =>
    simp only [List.mapM_cons, Task.ensures_bind, Task.ensures_pure]
    refine (Store.get_entry hv hS (his i List.mem_cons_self)).imp_ok ?_
    rintro x _ m' ⟨⟨rfl, hdiff⟩, hx⟩
    -- the elements are the same after each read
    have hsame := (hS.vectors v d hv).1.contents_of_differs hdiff fun _ _ => List.not_mem_nil
    refine (ih ((Kept.of_differs hS hdiff).valid hS) fun j hj =>
      his j (List.mem_cons_of_mem i hj)).imp ?_ ?_
    · rintro xs _ m'' ⟨⟨rfl, hdiff'⟩, hxs⟩
      rw [hsame] at hxs
      exact ⟨⟨rfl, hdiff.trans_same hdiff'⟩, .cons hx hxs⟩
    · rintro e _ m'' ⟨rfl, hdiff'⟩
      exact ⟨rfl, hdiff.trans_same hdiff'⟩

theorem Store.mapM_get_reports {is : List Nat} (his : ∀ i ∈ is, i < d.size) :
    (is.mapM fun (i : Nat) => get v (.int i)).Reports S := by
  induction is with
  | nil => exact Task.reports_pure []
  | cons i rest ih =>
    rw [List.mapM_cons]
    refine (Store.get_reports hv (his i List.mem_cons_self)).bind_same (get_same v _) fun x => ?_
    exact (ih fun j hj => his j (List.mem_cons_of_mem i hj)).bind fun _ _ => Task.reports_pure _

variable {σ : Type} {h : Handler σ} {view : σ → Memory} {x : σ}
  (meets : h.Meets view (deviceContract A F.suits)) (hS : S.Valid F (view x))
include meets hS

/-- Iteration returns the elements, unless a command fails, and leaves them and the store alone. -/
theorem Store.iterate_run {limit : Nat} (hlimit : d.size ≤ limit) :
    ∃ x', ((iterate limit v).runFrom S).run h x =
        ((unlessFailed (some (d.contents (view x))) ((iterate limit v).commands h S x), S), x') ∧
      (view x).Differs [] [] (view x') := by
  have hrange : ∀ i ∈ List.range d.size, i < d.size := fun i hi => List.mem_range.mp hi
  have hreports : (iterate limit v).Reports S := by
    intro ys hys
    rw [Task.Proceeds, Task.Ensures, iterate_eq hv hlimit]
    exact (mapM_get_reports hv hrange).bind (fun _ _ => Task.reports_pure _) ys hys
  have hensures : (iterate limit v).Ensures (deviceContract A F.suits)
      (fun xs S' m' => xs = some (d.contents (view x)) ∧ S' = S ∧ (view x).Differs [] [] m')
      (fun _ S' m' => S' = S ∧ (view x).Differs [] [] m') S (view x) := by
    rw [Task.Ensures, iterate_eq hv hlimit]
    refine Task.ensures_bind.mpr ((mapM_get_ensures hv hS hrange).imp ?_ fun _ _ _ h => h)
    rintro xs _ m' ⟨⟨rfl, hdiff⟩, hxs⟩
    rw [← (hS.vectors v d hv).1.length_contents] at hxs
    exact ⟨congrArg some (eq_of_forall₂_range hxs), rfl, hdiff⟩
  obtain ⟨_, x', hrun, rfl, hdiff⟩ := hreports.exists_run meets hensures
  exact ⟨x', hrun, hdiff⟩

/-- Reading a whole vector returns the elements, unless a command fails. -/
theorem Store.readAll_run : ∃ S' x', ((onVector v readAll).runFrom S).run h x =
    ((unlessFailed ⟨.element d.type, [d.size], (d.contents (view x)).toArray⟩
      ((onVector v readAll).commands h S x), S'), x') := by
  have hvalid := (hS.vectors v d hv).1
  have hensures : (onVector v readAll).Ensures (deviceContract A F.suits)
      (fun data _ _ => data = ⟨.element d.type, [d.size], (d.contents (view x)).toArray⟩ ∧ True)
      (fun _ _ _ => True) S (view x) := by
    rw [onVector_ensures_of_some hv]
    simp only [readAll, Task.ensures_bind, Task.ensures_get]
    refine (readRange_ensures hvalid).imp ?_ fun _ _ _ _ => trivial
    rintro ⟨type, shape, values⟩ d' m' ⟨-, -, rfl, rfl, hvalues⟩
    have hall : values = (d.contents (view x)).toArray := by
      rw [← Array.toList_inj, hvalues, part, ← hvalid.length_contents]
      simp
    exact ⟨by rw [hall, Int.toNat_natCast], trivial⟩
  obtain ⟨S', x', hrun, -⟩ := (onVector_reports hv readAll_reports).exists_run meets hensures
  exact ⟨S', x', hrun⟩

/-- Moving forward step by step leads to the position made at the end of the way. Positions and
indices name the element in the one shard around them. Indices are refused exactly outside the
vector, and negative ones count from the end. Iteration reads every index once, in order, and ends
with the elements that reading the whole vector returns. -/
theorem Store.Valid.positions_agree :
    (∀ i k : Nat, ∃ start moved made shifted : VectorCursor,
      (cursorAt v i).runFrom S = pure (.ok start, S) ∧
      (advanceBy k start).runFrom S = pure (.ok moved, S) ∧
      (cursorAt v (i + k)).runFrom S = pure (.ok made, S) ∧
      (shift (.vector start) k).runFrom S = pure (.ok (.vector shifted), S) ∧
      made.position = i + k ∧ moved.position = made.position ∧ moved.shard = made.shard ∧
      (Cursor.vector shifted).same (.vector made) ∧ (Cursor.vector moved).same (.vector shifted) ∧
      (Cursor.vector shifted).diff (.vector start) = .ok (k : Int)) ∧
    (∀ i < d.size, ∃ c e, (cursorAt v i).runFrom S = pure (.ok c, S) ∧
      (deref (.vector c)).runFrom S = pure (.ok e, S) ∧
      (locate v (.int i)).runFrom S = pure (.ok e, S) ∧ e.Names (view x) v d i) ∧
    (∀ index j, index.toInt = .ok j →
      (-(d.size : Int) ≤ j ∧ j < d.size → ∃ e, (locate v index).runFrom S = pure (.ok e, S) ∧
        e.Names (view x) v d (if j < 0 then j + d.size else j).toNat) ∧
      (¬ (-(d.size : Int) ≤ j ∧ j < d.size) →
        ∃ f, (locate v index).runFrom S = pure (.error f, S) ∧ f.kind = .index)) ∧
    (∀ j : Nat, 0 < j → j ≤ d.size →
      (locate v (.int (-j))).runFrom S = (locate v (.int (d.size - j))).runFrom S) ∧
    ∀ limit, d.size ≤ limit →
      (iterate limit v).runFrom S =
        (do return some (← (List.range d.size).mapM fun (i : Nat) => get v (.int i)) :
          Task Store _).runFrom S ∧
      ∃ x' S'' x'', ((iterate limit v).runFrom S).run h x =
          ((unlessFailed (some (d.contents (view x))) ((iterate limit v).commands h S x), S), x') ∧
        ((onVector v readAll).runFrom S).run h x =
          ((unlessFailed ⟨.element d.type, [d.size], (d.contents (view x)).toArray⟩
            ((onVector v readAll).commands h S x), S''), x'') := by
  have hvalid := (hS.vectors v d hv).1
  refine ⟨fun i k => ?_, fun i hi => ?_, fun index j hindex => ⟨fun hin => ?_, fun hout => ?_⟩,
    fun j hpos hle => ?_, fun limit hlimit => ⟨iterate_eq hv hlimit, ?_⟩⟩
  · refine ⟨_, _, _, _, cursorAt_runFrom hv i, advanceBy_runFrom hv (Int.natCast_nonneg i) k,
      cursorAt_runFrom hv _, shift_runFrom hv _ rfl k, rfl, rfl, rfl, ?_, ?_, ?_⟩
    · simp [Cursor.same]
    · simp [Cursor.same]
    · simp only [Cursor.diff, Int.add_comm (i : Int), Int.add_sub_cancel]
  · obtain ⟨before, s, after, ho⟩ := Descriptor.exists_owner hi
    exact ⟨_, _, cursorAt_runFrom hv i, deref_runFrom hv ho,
      locate_runFrom_of_owner hv rfl ho.position ho, ho.names v hvalid⟩
  · have hposition := d.position_eq_ite j
    rw [if_pos hin] at hposition
    obtain ⟨before, s, after, ho⟩ := Descriptor.exists_owner (d := d)
      (i := (if j < 0 then j + d.size else j).toNat) (by split <;> omega)
    exact ⟨_, locate_runFrom_of_owner hv hindex hposition ho, ho.names v hvalid⟩
  · refine ⟨.vector (.index d.size), ?_, rfl⟩
    rw [locate_runFrom hv hindex, d.position_eq_ite, if_neg hout]
  · have hsame : d.position (-(j : Int)) = d.position (d.size - j) := by
      rw [d.position_eq_ite, d.position_eq_ite, if_pos (by omega), if_pos (by omega),
        if_pos (by omega), if_neg (by omega), Int.add_comm, Int.sub_eq_add_neg]
    rw [locate_runFrom hv rfl, locate_runFrom hv rfl, hsame]
  · obtain ⟨x', hiterate, -⟩ := iterate_run hv meets hS hlimit
    obtain ⟨S'', x'', hread⟩ := readAll_run hv meets hS
    exact ⟨x', S'', x'', hiterate, hread⟩

end Reading

namespace Sample

/-- A vector of three integers, with shards without elements in front, in between and at the end. -/
def gaps : Store × Machine.Executing :=
  after (.set 0 (.int 1) (.int 7)) (after (.construct
    ⟨[0, 1, 0, 1, 0], .count 3, none, .exact .int32,
    .readWrite, 0, some [0, 0, 2, 2, 3, 3]⟩) (store, machine))

theorem reachable_gaps :
    Reachable Machine.Executing.handle Machine.Executing.memory (.unrestricted hardware)
      gaps.1 gaps.2 :=
  reachable_after (reachable_after (reachable_store rfl) (Plain.offers_count _ _) trivial)
    trivial trivial

end Sample

/-- The last element is found across the shards without elements, and iteration returns all
three. -/
theorem Store.Valid.positions_agree_gaps : ∃ d c e f x', Sample.gaps.1.vectors[0]? = some d ∧
    d.boundaries = [0, 0, 2, 2, 3, 3] ∧
    (cursorAt 0 (2 : Nat)).runFrom Sample.gaps.1 = pure (.ok c, Sample.gaps.1) ∧ c.shard = 3 ∧
    (deref (.vector c)).runFrom Sample.gaps.1 = pure (.ok e, Sample.gaps.1) ∧
    e.Names Sample.gaps.2.memory 0 d 2 ∧
    (locate 0 (.int 3)).runFrom Sample.gaps.1 = pure (.error f, Sample.gaps.1) ∧ f.kind = .index ∧
    Sample.run (iterate 3 0) Sample.gaps =
      ((unlessFailed (some (d.contents Sample.gaps.2.memory))
        ((iterate 3 0).commands Machine.Executing.handle Sample.gaps.1 Sample.gaps.2),
        Sample.gaps.1), x') ∧
    d.contents Sample.gaps.2.memory = [.int 0, .int 7, .int 0] := by
  obtain ⟨d, hd⟩ : ∃ d, Sample.gaps.1.vectors[0]? = some d := ⟨_, rfl⟩
  have hdata : d.boundaries = [0, 0, 2, 2, 3, 3] ∧ d.size = 3 ∧ d.shardAt 2 = 3 ∧
      d.contents Sample.gaps.2.memory = [.int 0, .int 7, .int 0] := by
    cases hd
    exact ⟨rfl, rfl, rfl, rfl⟩
  obtain ⟨hboundaries, hsize, hshard, hcontents⟩ := hdata
  obtain ⟨-, hnames, hindices, -, hiterates⟩ :=
    Store.Valid.positions_agree hd (Machine.Executing.meets _)
    (Sample.reachable_gaps.valid (Machine.Executing.meets _))
  obtain ⟨c, e, hc, he, -, hnamed⟩ := hnames 2 (by omega)
  obtain ⟨f, hf, hkind⟩ := (hindices (.int 3) 3 rfl).2 (by omega)
  obtain ⟨-, x', S'', x'', hrun, -⟩ := hiterates 3 (by omega)
  have hmade : c = ⟨0, 2, d.shardAt 2⟩ :=
    Except.ok.inj (Prod.mk.inj (Program.pure.inj (hc.symm.trans (cursorAt_runFrom hd 2)))).1
  exact ⟨d, c, e, f, x', hd, hboundaries, hc, by rw [hmade, hshard], he, hnamed, hf, hkind,
    hrun, hcontents⟩

end DistributedVector
