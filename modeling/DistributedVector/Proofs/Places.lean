import DistributedVector.Proofs.Transfer
import Mathlib.Data.List.Sort

/-!
# Where elements lie

Every element of a vector lies in a buffer of one device, at some position. In order these places
are those of the first shard, then those of the second one, and so on. A range of a vector is a part
of this list, and the pieces that a transfer takes a range apart into are this part again, cut at
the boundaries: nothing is left out, nothing comes twice, and no piece is empty.

## Main definitions

* `Place`, `Descriptor.places` — places, and those of a vector with the shards that own them
* `Descriptor.touched` — the shards that own an element of a range
* `Place.Inside` — places that exist

## Main results

* `flatMap_places` — the pieces of a range are its places in order
* `flatMap_drop_take` — they cut data of the host into the same pieces
* `map_shard_pieces` — there is one for each shard that the range meets
-/

namespace DistributedVector

/-- Where an element lies: a device, a buffer, and a position in it. -/
structure Place where
  device : DeviceId
  buffer : Option BufferId
  position : Int
  deriving DecidableEq, Repr

namespace Place

/-- Places side by side. -/
def row (device : DeviceId) (buffer : Option BufferId) (offset : Int) (count : Nat) : List Place :=
  (List.range count).map fun (j : Nat) => ⟨device, buffer, offset + j⟩

/-- A place lies in a buffer that is there, on its device. -/
def Inside (m : Memory) (q : Place) : Prop :=
  ∃ b buf, q.buffer = some b ∧ m.buffer b = some buf ∧ buf.device = q.device ∧ 0 ≤ q.position ∧
    q.position < buf.data.size

variable {device : DeviceId} {buffer : Option BufferId} {offset : Int} {count : Nat} {q : Place}

@[simp] theorem length_row : (row device buffer offset count).length = count := by simp [row]

@[simp] theorem row_zero : row device buffer offset 0 = [] := rfl

theorem mem_row : q ∈ row device buffer offset count ↔
    q.device = device ∧ q.buffer = buffer ∧ offset ≤ q.position ∧ q.position < offset + count := by
  simp only [row, List.mem_map, List.mem_range]
  constructor
  · rintro ⟨j, hj, rfl⟩
    exact ⟨rfl, rfl, by dsimp only; omega, by dsimp only; omega⟩
  · rintro ⟨rfl, rfl, hlower, hupper⟩
    refine ⟨(q.position - offset).toNat, by omega, ?_⟩
    rw [Int.toNat_of_nonneg (by omega), Int.add_comm, Int.sub_add_cancel]

/-- A part of a row is a row. -/
theorem take_drop_row (a k : Nat) : ((row device buffer offset count).drop a).take k =
    row device buffer (offset + a) (min k (count - a)) := by
  refine List.ext_getElem (by simp) fun i _ _ => ?_
  simp only [row, List.getElem_take, List.getElem_drop, List.getElem_map, List.getElem_range,
    Int.natCast_add, Int.add_assoc]

end Place

/-- The places of shards numbered from `index`, each with the number of its shard. -/
def placesFrom : Nat → List Shard → List (Nat × Place)
  | _, [] => []
  | index, s :: rest =>
    (Place.row s.device s.buffer 0 s.length).map (index, ·) ++ placesFrom (index + 1) rest

/-- The places of a piece. -/
def Piece.places (p : Piece) : List Place := Place.row p.device p.buffer p.localOffset p.count

/-- The places of the elements of a vector in order, each with the number of the shard that owns
it. -/
def Descriptor.places (d : Descriptor) : List (Nat × Place) := placesFrom 0 d.shards

/-- The shards that own an element of a range, in order. -/
def Descriptor.touched (d : Descriptor) (offset count : Int) : List Nat :=
  (List.range d.shards.length).filter fun k => k ∈ (Vector.part offset count d.places).map (·.1)

section Places

variable {index start offset count : Nat} {shards : List Shard} {k : Nat} {q : Place} {m : Memory}
  {d : Descriptor}

theorem length_placesFrom : (placesFrom index shards).length = total (shards.map (·.length)) := by
  induction shards generalizing index with
  | nil => rfl
  | cons s rest ih => simp [placesFrom, total, ih]

/-- There are as many places as elements. -/
theorem length_places : d.places.length = d.size := length_placesFrom

theorem mem_placesFrom : (k, q) ∈ placesFrom index shards ↔
    ∃ j s, k = index + j ∧ shards[j]? = some s ∧ q ∈ Place.row s.device s.buffer 0 s.length := by
  induction shards generalizing index with
  | nil => simp [placesFrom]
  | cons s rest ih =>
    simp only [placesFrom, List.mem_append, List.mem_map, ih]
    constructor
    · rintro (⟨q, hq, ⟨⟩⟩ | ⟨j, s', rfl, hs', hq⟩)
      · exact ⟨0, s, rfl, rfl, hq⟩
      · exact ⟨j + 1, s', by omega, hs', hq⟩
    · rintro ⟨_ | j, s', rfl, hs', hq⟩
      · obtain rfl := Option.some_inj.mp hs'
        exact .inl ⟨q, hq, rfl⟩
      · exact .inr ⟨j, s', by omega, hs', hq⟩

/-- The places of a shard are those of its buffer. -/
theorem mem_places : (k, q) ∈ d.places ↔
    ∃ s, d.shards[k]? = some s ∧ q ∈ Place.row s.device s.buffer 0 s.length := by
  rw [Descriptor.places, mem_placesFrom]
  simp

/-- The places of a valid vector exist. -/
theorem inside_of_mem_places (hv : d.Valid m) (hq : (k, q) ∈ d.places) : q.Inside m := by
  obtain ⟨s, hs, hrow⟩ := mem_places.mp hq
  obtain ⟨hdevice, hbuffer, hlower, hupper⟩ := Place.mem_row.mp hrow
  obtain ⟨b, data, hb, hsize, hbuf, -⟩ := (hv.each s (List.mem_of_getElem? hs)).buffer (by omega)
  exact ⟨b, _, hbuffer.trans hb, hbuf, hdevice.symm, hlower, by dsimp only; omega⟩

/-- The pieces of a range are its places, in order. -/
theorem flatMap_places_from :
    (piecesFrom offset count index start shards).flatMap (fun p => p.places.map (p.shard, ·)) =
      ((placesFrom index shards).drop (offset - start)).take
      (offset + count - max offset start) := by
  induction shards generalizing index start with
  | nil => simp [piecesFrom, placesFrom]
  | cons s rest ih =>
    -- what is taken from the first shard, and from the others
    have hfirst : (((Place.row s.device s.buffer 0 s.length).map (index, ·)).drop
      (offset - start)).take
        (offset + count - max offset start) =
        (Place.row s.device s.buffer (max offset start - start : Nat)
          (min (offset + count) (start + s.length) - max offset start)).map (index, ·) := by
      rw [← List.map_drop, ← List.map_take, Place.take_drop_row, Int.zero_add]
      congr 2 <;> omega
    have hothers := @ih (index + 1) (start + s.length)
    -- the same cut, seen from the others
    rw [placesFrom, List.drop_append, List.take_append, hfirst]
    simp only [List.length_drop, List.length_map, Place.length_row, piecesFrom]
    rw [show offset - start - s.length = offset - (start + s.length) by omega,
      show offset + count - max offset start - (s.length - (offset - start)) =
        offset + count - max offset (start + s.length) by omega, ← hothers]
    split
    · rfl
    next hge =>
      rw [Nat.sub_eq_zero_of_le (Nat.le_of_not_lt hge)]
      rfl

/-- The pieces of a range cut a list as they cut the range. -/
theorem flatMap_drop_take_from {α : Type} (xs : List α) :
    (piecesFrom offset count index start shards).flatMap
    (fun p => (xs.drop p.rangeOffset).take p.count) =
      (xs.drop (max offset start - offset)).take
        (min (offset + count) (start + total (shards.map (·.length))) - max offset start) := by
  induction shards generalizing index start with
  | nil =>
    have hnone : min (offset + count) (start + 0) - max offset start = 0 := by omega
    rw [List.map_nil, total, hnone, List.take_zero]
    rfl
  | cons s rest ih =>
    have hothers := @ih (index + 1) (start + s.length)
    simp only [piecesFrom, List.map_cons, total]
    generalize hrest : total (rest.map (·.length)) = n at hothers ⊢
    split
    next hlt =>
      rw [List.flatMap_cons, hothers]
      -- the range goes on behind this shard, or ends in it
      by_cases hlast : start + s.length ≤ offset + count
      · rw [show min (offset + count) (start + (s.length + n)) - max offset start =
          (min (offset + count) (start + s.length) - max offset start) +
            (min (offset + count) (start + s.length + n) - max offset (start + s.length)) by omega,
          List.take_add, List.drop_drop]
        congr 3
        omega
      · -- the range ends in this shard
        rw [show min (offset + count) (start + s.length + n) - max offset (start + s.length) =
          0 by omega, show min (offset + count) (start + (s.length + n)) =
            min (offset + count) (start + s.length) by
            omega]
        simp
    next hge =>
      rw [hothers]
      by_cases hlast : offset + count ≤ start + s.length
      · rw [show min (offset + count) (start + s.length + n) - max offset (start + s.length) =
          0 by omega, show min (offset + count) (start + (s.length + n)) - max offset start = 0 by
            omega]
        simp
      · congr 2 <;> omega

/-- Pieces lie on different shards, in order, and each of them has an element. -/
theorem piecesFrom_ordered :
    ((piecesFrom offset count index start shards).map (·.shard)).Pairwise (· < ·) ∧
      ∀ p ∈ piecesFrom offset count index start shards,
        0 < p.count ∧ index ≤ p.shard ∧ p.shard < index + shards.length := by
  induction shards generalizing index start with
  | nil => simp [piecesFrom]
  | cons s rest ih =>
    obtain ⟨hordered, hrest⟩ := @ih (index + 1) (start + s.length)
    have hothers : ∀ p ∈ piecesFrom offset count (index + 1) (start + s.length) rest,
        0 < p.count ∧ index ≤ p.shard ∧ p.shard < index + (s :: rest).length := fun p hp => by
      have := hrest p hp
      rw [List.length_cons]
      omega
    rw [piecesFrom]
    split
    next hlt =>
      refine ⟨List.pairwise_cons.mpr ⟨fun k hk => ?_, hordered⟩,
        List.forall_mem_cons.mpr ⟨?_, hothers⟩⟩
      · obtain ⟨p, hp, rfl⟩ := List.mem_map.mp hk
        exact (hrest p hp).2.1
      · exact ⟨Nat.sub_pos_of_lt hlt, Nat.le_refl _, Nat.lt_add_of_pos_right (Nat.succ_pos _)⟩
    · exact ⟨hordered, hothers⟩

/-- The pieces of a range are its places in order, each with the shard that owns it. -/
theorem flatMap_places : (d.pieces offset count).flatMap (fun p => p.places.map (p.shard, ·)) =
    Vector.part offset count d.places := by
  rw [Descriptor.pieces, flatMap_places_from, Vector.part, Nat.max_zero, Nat.add_sub_cancel_left]
  rfl

/-- Pieces have an element. -/
theorem count_pos_of_mem_pieces {p : Piece} (hp : p ∈ d.pieces offset count) : 0 < p.count :=
  (piecesFrom_ordered.2 p hp).1

/-- Pieces lie on shards. -/
theorem shard_lt_of_mem_pieces {p : Piece} (hp : p ∈ d.pieces offset count) :
    p.shard < d.shards.length := by
  have := (piecesFrom_ordered.2 p hp).2.2
  omega

/-- The places of a piece are owned by its shard. -/
theorem mem_part_of_mem_pieces {p : Piece} (hp : p ∈ d.pieces offset count) (hq : q ∈ p.places) :
    (p.shard, q) ∈ Vector.part offset count d.places := by
  rw [← flatMap_places]
  exact List.mem_flatMap.mpr ⟨p, hp, List.mem_map.mpr ⟨q, hq, rfl⟩⟩

theorem mem_of_mem_part {α : Type} {offset count : Int} {x : α} {xs : List α}
    (h : x ∈ Vector.part offset count xs) : x ∈ xs :=
  List.mem_of_mem_drop (List.mem_of_mem_take h)

/-- There is one piece for each shard that the range meets, in order. -/
theorem map_shard_pieces : (d.pieces offset count).map (·.shard) = d.touched offset count := by
  have hordered : ((d.pieces offset count).map (·.shard)).Pairwise (· < ·) := piecesFrom_ordered.1
  have htouched : (d.touched offset count).Pairwise (· < ·) := List.pairwise_lt_range.filter _
  -- both lists ascend, so it is enough that they have the same members
  refine List.Perm.eq_of_pairwise (fun _ _ _ _ h h' => absurd h (Nat.lt_asymm h'))
    hordered htouched ?_
  refine (List.perm_ext_iff_of_nodup (hordered.imp Nat.ne_of_lt) (htouched.imp Nat.ne_of_lt)).mpr
    fun k => ?_
  simp only [Descriptor.touched, List.mem_filter, List.mem_range, decide_eq_true_eq,
    ← flatMap_places, List.mem_map, List.mem_flatMap]
  constructor
  · rintro ⟨p, hp, rfl⟩
    have hfirst : (⟨p.device, p.buffer, p.localOffset⟩ : Place) ∈ p.places :=
      Place.mem_row.mpr ⟨rfl, rfl, Int.le_refl _, by
        have := count_pos_of_mem_pieces hp
        dsimp only
        omega⟩
    exact ⟨shard_lt_of_mem_pieces hp, _, ⟨p, hp, _, hfirst, rfl⟩, rfl⟩
  · rintro ⟨-, _, ⟨p, hp, q, -, rfl⟩, rfl⟩
    exact ⟨p, hp, rfl⟩

/-- The pieces of a range that lies in the vector cut data of its length into consecutive parts. -/
theorem flatMap_drop_take {α : Type} {xs : List α} (hlength : xs.length = count)
    (hrange : offset + count ≤ d.size) :
    (d.pieces offset count).flatMap (fun p => (xs.drop p.rangeOffset).take p.count) = xs := by
  rw [Descriptor.pieces, flatMap_drop_take_from, ← Descriptor.lengths, ← Descriptor.size,
    Nat.max_zero, Nat.sub_self, Nat.zero_add, Nat.min_eq_left hrange, Nat.add_sub_cancel_left,
    List.drop_zero, ← hlength, List.take_length]

end Places

/-- The element at a place. -/
def Memory.element (m : Memory) (q : Place) : Option Scalar :=
  (q.buffer.bind m.buffer).bind fun buf => buf.data[q.position.toNat]?

section Elements

variable {m m' : Memory} {type : ElementType} {access : Access} {index : Nat} {shards : List Shard}
  {d : Descriptor}

theorem Shard.Valid.map_element_row {s : Shard} (hv : s.Valid m type access) :
    (Place.row s.device s.buffer 0 s.length).map m.element = (s.contents m).map some := by
  by_cases hempty : s.length = 0
  · rw [hempty, Shard.contents_of_none (hv.absent.mpr hempty)]
    rfl
  obtain ⟨b, data, hb, hsize, hbuf, hcontents⟩ := hv.buffer hempty
  refine List.ext_getElem ?_ fun j _ _ => ?_
  · rw [List.length_map, List.length_map, Place.length_row, hv.length_contents]
  · simp [Place.row, Memory.element, hb, hbuf, hcontents]

/-- The elements of a vector are those at its places. -/
theorem map_element_places (hv : d.Valid m) :
    d.places.map (fun x => m.element x.2) = (d.contents m).map some := by
  have hfrom : ∀ index, ShardsValid m d.type d.access d.shards →
      (placesFrom index d.shards).map (fun x => m.element x.2) =
      (contentsOf m d.shards).map some := by
    generalize d.shards = shards
    intro index hv
    induction shards generalizing index with
    | nil => rfl
    | cons s rest ih =>
      rw [placesFrom, contentsOf_cons, List.map_append, List.map_append, ih _ hv.tail,
        ← hv.head.map_element_row, List.map_map]
      rfl
  exact hfrom 0 hv

theorem nodup_placesFrom (hv : ShardsValid m type access shards) :
    ((placesFrom index shards).map (·.2)).Nodup := by
  induction shards generalizing index with
  | nil => exact List.nodup_nil
  | cons s rest ih =>
    have hrow : (Place.row s.device s.buffer 0 s.length).Nodup :=
      List.nodup_range.map fun i j h => by
        have := congrArg Place.position h
        dsimp only at this
        omega
    rw [placesFrom, List.map_append, List.map_map, Function.comp_def, List.map_id']
    refine List.nodup_append.mpr ⟨hrow, ih hv.tail, fun q hq q' hq' => ?_⟩
    rintro rfl
    -- another shard would share the buffer
    obtain ⟨⟨k, q⟩, hk, rfl⟩ := List.mem_map.mp hq'
    obtain ⟨j, s', -, hs', hrow'⟩ := mem_placesFrom.mp hk
    obtain ⟨-, hbuffer, hlower, hupper⟩ := Place.mem_row.mp hq
    obtain ⟨b, -, hb, -⟩ := hv.head.buffer (by omega)
    have hb' : s'.buffer = some b := (Place.mem_row.mp hrow').2.1.symm.trans (hbuffer.trans hb)
    exact hv.head_notMem hb (mem_buffersOf.mpr ⟨s', List.mem_of_getElem? hs', hb'⟩)

/-- The places of a valid vector are different. -/
theorem nodup_places (hv : d.Valid m) : (d.places.map (·.2)).Nodup := nodup_placesFrom hv

/-- Where the places outside a range keep their elements, a vector keeps its elements outside it. -/
theorem getElem?_contents_of_places {offset count : Int} (hv : d.Valid m) (hv' : d.Valid m')
    (hkeeps : ∀ x ∈ d.places, x.2 ∉ (Vector.part offset count d.places).map (·.2) →
      m'.element x.2 = m.element x.2) {i : Nat}
    (hi : i < offset.toNat ∨ offset.toNat + count.toNat ≤ i) :
    (d.contents m')[i]? = (d.contents m)[i]? := by
  have hold := congrArg (·[i]?) (map_element_places hv)
  have hnew := congrArg (·[i]?) (map_element_places hv')
  simp only [List.getElem?_map] at hold hnew
  suffices hsame : (d.places[i]?).map (fun x => m'.element x.2) =
      (d.places[i]?).map (fun x => m.element x.2) from
    Option.map_injective (Option.some_injective _) (hnew.symm.trans (hsame.trans hold))
  cases hx : d.places[i]? with
  | none => rfl
  | some x =>
    refine congrArg some (hkeeps x (List.mem_of_getElem? hx) fun hmem => ?_)
    -- the places in the range are others
    obtain ⟨y, hy, heq⟩ := List.mem_map.mp hmem
    obtain ⟨j, hj⟩ := List.getElem?_of_mem hy
    rw [Vector.part, List.getElem?_take, List.getElem?_drop] at hj
    split at hj
    · have hsame : (d.places.map (·.2))[offset.toNat + j]? = (d.places.map (·.2))[i]? := by
        rw [List.getElem?_map, List.getElem?_map, hj, hx, Option.map_some, Option.map_some, heq]
      have hlt : offset.toNat + j < (d.places.map (·.2)).length := by
        rw [List.length_map]
        exact (List.getElem?_eq_some_iff.mp hj).1
      have := (List.getElem?_inj hlt (nodup_places hv)).mp hsame
      omega
    · cases hj

end Elements

end DistributedVector
