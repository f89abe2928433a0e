import DistributedVector.Proofs.Commands

/-!
# Ranges

A transfer between a vector and the host gives one command to each shard that owns an element of its
range, in order, and no other one. Together they move each element of the range once, between its
place and the element of the host that belongs to it. Only then a transfer waits, once for each
command. What a transfer refuses it refuses before all commands, and a command that fails ends it.

## Main definitions

* `Vector.Transfers` — commands that move a range
* `Vector.Carried`, `Vector.Ends` — what is asked of devices for a transfer, and in which order
* `Vector.InRange`, `Vector.ReadTarget.Suits`, `Vector.ReadTarget.Holds` — what transfers accept

## Main results

* `Vector.transfers_pieces` — the pieces of a range move it
* `Vector.write_proceeds`, `Vector.write_refused` — writes
* `Vector.read_ends`, `Vector.read_empty`, `Vector.read_refused` — reads
-/

namespace DistributedVector

namespace Vector

section Transfers

variable {β : Type} {moves : Call → List (Place × β)} {d d' : Descriptor} {offset count : Int}
  {host : List β} {blocking : Bool}

/-- Commands for the shards that own an element of a range, in order, each of which moves elements
of its shard. Together they move the elements of the range in order, each from or to its place, to
or from the element of the host that belongs to it. -/
structure Transfers (moves : Call → List (Place × β)) (d : Descriptor) (offset count : Int)
    (host : List β) (commands : List Call) : Prop where
  shards : List.Forall₂ (fun k c => moves c ≠ [] ∧ ∀ x ∈ moves c, (k, x.1) ∈ d.places)
    (d.touched offset count) commands
  elements : commands.flatMap moves = ((part offset count d.places).map (·.2)).zip host

/-- The commands of a transfer are given in order until one fails. If the transfer waits, and none
has failed, it then waits for each of them. -/
def Carried (moves : Call → List (Place × β)) (d : Descriptor) (offset count : Int) (host : List β)
    (blocking : Bool) (starts waits : List Exchange) : Prop :=
  ∃ commands, Transfers moves d offset count host commands ∧ Attempted commands starts ∧
    -- waits follow in the order of the commands, and stop at one that fails
    Attempted (if blocking = true ∧ firstFault starts =
      none then starts.filterMap Exchange.wait? else [])
      waits

theorem flatMap_zip {α γ δ : Type} {xs : List α} {f : α → List γ} {g : α → List δ}
    (h : ∀ x ∈ xs, (f x).length = (g x).length) :
    xs.flatMap (fun x => (f x).zip (g x)) = (xs.flatMap f).zip (xs.flatMap g) := by
  induction xs with
  | nil => rfl
  | cons x rest ih =>
    rw [List.flatMap_cons, List.flatMap_cons, List.flatMap_cons,
      List.zip_append (h x List.mem_cons_self), ih fun y hy => h y (List.mem_cons_of_mem _ hy)]

/-- Moves of the pieces of a range, with the parts of the host's elements that belong to them. -/
theorem transfers_pieces {offset count : Nat} (hlength : host.length = count)
    (hrange : offset + count ≤ d.size) {f : Piece → Move}
    (hmoves : ∀ p, p.rangeOffset + p.count ≤ count →
      moves (f p).call = p.places.zip ((host.drop p.rangeOffset).take p.count)) :
    Transfers moves d offset count host ((d.pieces offset count).map fun p => (f p).call) := by
  have hpieces : ∀ p ∈ d.pieces offset count,
      p.places.length = ((host.drop p.rangeOffset).take p.count).length ∧
      moves (f p).call = p.places.zip ((host.drop p.rangeOffset).take p.count) := by
    intro p hp
    -- a piece of the range is no longer than what is left of the host's elements
    obtain ⟨-, hroom, -⟩ := mem_piecesFrom hp
    refine ⟨?_, hmoves p hroom⟩
    rw [Piece.places, Place.length_row, List.length_take, List.length_drop]
    omega
  constructor
  · -- each command moves some elements, all of them of its own shard
    rw [← map_shard_pieces, List.forall₂_map_left_iff, List.forall₂_map_right_iff,
      List.forall₂_same]
    intro p hp
    obtain ⟨hsame, hmoves⟩ := hpieces p hp
    have hpos : 0 < p.count := count_pos_of_mem_pieces hp
    rw [hmoves]
    refine ⟨fun hnil => ?_, fun x hx => mem_of_mem_part
      (mem_part_of_mem_pieces hp (List.of_mem_zip hx).1)⟩
    have hlengths := congrArg List.length hnil
    rw [List.length_zip, ← hsame, Piece.places, Place.length_row, List.length_nil] at hlengths
    omega
  · -- pieces cut the places of the range and the elements of the host alike
    have hplaces : (d.pieces offset count).flatMap Piece.places =
      (part offset count d.places).map (·.2) := by
      rw [← flatMap_places, List.map_flatMap]
      simp only [List.map_map, Function.comp_def, List.map_id']
    rw [List.flatMap_map, List.flatMap_congr fun p hp => (hpieces p hp).2,
      flatMap_zip fun p hp => (hpieces p hp).1, hplaces, flatMap_drop_take hlength hrange]

end Transfers

/-- A write to a piece stores the part of the data that belongs to it. -/
theorem stores_writing {data : Array Scalar} {p : Piece}
    (hroom : p.rangeOffset + p.count ≤ data.size) :
    (p.writing data).call.stores = p.places.zip
    ((data.toList.drop p.rangeOffset).take p.count) := by
  have hsize : (data.extract p.rangeOffset (p.rangeOffset + p.count)).size = p.count := by
    rw [Array.size_extract]
    omega
  rw [Piece.writing, Move.call, Call.stores, hsize, toList_part]
  rfl

/-- A read of a piece loads into the part of the array that belongs to it. -/
theorem loads_reading {view : HostView} {p : Piece} {n : Nat}
    (hroom : p.rangeOffset + p.count ≤ n) : (p.reading view).call.loads = p.places.zip
      ((((List.range n).map fun j => (view.cell, view.offset + j)).drop p.rangeOffset).take
        p.count) := by
  rw [Piece.reading, Move.call, Call.loads, Piece.places]
  congr 1
  refine List.ext_getElem ?_ fun i _ _ => ?_
  · simp
    omega
  · simp [Nat.add_assoc]

section Transfers

variable {β : Type} {moves : Call → List (Place × β)} {d d' : Descriptor} {offset count : Nat}
  {host : List β} {ys ys' ys'' : List Exchange} {fault : Option DeviceFault} {f : Piece → Move}

/-- What has become of a vector and of the exchanges in a transfer, and the fault that ended it. -/
def Ends (moves : Call → List (Place × β)) (d : Descriptor) (offset count : Int) (host : List β)
    (blocking : Bool) (ys : List Exchange) (fault : Option DeviceFault) (d' : Descriptor)
    (ys' : List Exchange) : Prop :=
  ∃ starts waits, ys' = ys ++ (starts ++ waits) ∧ firstFault (starts ++ waits) = fault ∧
    Carried moves d offset count host blocking starts waits ∧
    d' = d.note (d.touched offset count) starts

variable (htransfers : Transfers moves d offset count host
  ((d.pieces offset count).map fun p => (f p).call))
include htransfers

/-- The commands of a transfer that does not wait, or in which one has failed. -/
theorem Started.ends {blocking : Bool}
    (h : Started ((d.pieces offset count).map fun p => (p.shard, f p)) d ys fault d' ys')
    (hlast : blocking = false ∨ fault ≠ none) :
    Ends moves d offset count host blocking ys fault d' ys' := by
  obtain ⟨starts, rfl, hattempted, rfl, rfl⟩ := h
  rw [List.map_map] at hattempted
  have hnowait : ¬ (blocking = true ∧ firstFault starts = none) := by
    rintro ⟨rfl, hnone⟩
    exact hlast.elim nofun fun h => h hnone
  refine ⟨starts, [], by rw [List.append_nil], by rw [List.append_nil],
    ⟨_, htransfers, hattempted, ?_⟩, ?_⟩
  · rw [if_neg hnowait]
    exact .done
  · rw [List.map_map, ← map_shard_pieces]
    rfl

/-- The waits of a transfer are one for each of its commands. -/
theorem Started.ends_awaited (hdevice : ∀ p, (f p).device = p.device)
    (h : Started ((d.pieces offset count).map fun p => (p.shard, f p)) d ys none d' ys')
    {d'' : Descriptor}
    (hwaits : Awaited ((d.pieces offset count).filterMap (waitOf d')) d' ys' fault d'' ys'') :
    Ends moves d offset count host true ys fault d'' ys'' := by
  obtain ⟨starts, rfl, hattempted, hok, rfl⟩ := h
  obtain ⟨rfl, waits, rfl, hwaited, rfl⟩ := hwaits
  have haccepted := forall₂_of_attempted hattempted hok
  have hdistinct : (((d.pieces offset count).map fun p => (p.shard, f p)).map (·.1)).Nodup := by
    rw [List.map_map]
    exact piecesFrom_ordered.1.imp Nat.ne_of_lt
  -- a shard has one piece, so that its event is not noted over
  have hevents := event?_note (d := d) haccepted hdistinct fun x hx => by
    obtain ⟨p, hp, rfl⟩ := List.mem_map.mp hx
    exact shard_lt_of_mem_pieces hp
  have hsame := filterMap_waitOf hdevice haccepted hevents
  refine ⟨starts, waits, List.append_assoc .., ?_, ⟨_, htransfers, ?_, ?_⟩, ?_⟩
  · rw [firstFault_append, hok, Option.none_or]
  · rw [List.map_map] at hattempted
    exact hattempted
  · -- what has been noted is what has been accepted
    rw [if_pos ⟨rfl, hok⟩, ← hsame]
    exact hwaited
  · rw [List.map_map, ← map_shard_pieces]
    rfl

end Transfers

section Vectors

variable {d : Descriptor} {offset count : Int} {blocking : Bool} {ys : List Exchange}

/-- A range of a vector with elements. -/
def InRange (d : Descriptor) (offset count : Int) : Prop :=
  0 ≤ offset ∧ 0 < count ∧ offset + count ≤ d.size

instance : Decidable (InRange d offset count) := inferInstanceAs (Decidable (_ ∧ _ ∧ _))

theorem InRange.checkRange (h : InRange d offset count) : d.checkRange offset count = .ok () := by
  obtain ⟨hoffset, hcount, hroom⟩ := h
  rw [Descriptor.checkRange, if_neg (by omega)]

/-- A run of elements is a range. -/
theorem inRange_run {start stop : Nat} (hlt : start < stop) (hroom : stop ≤ d.size) :
    InRange d start ((stop : Int) - start) := by
  rw [InRange]
  omega

/-- A write gives the commands of its range. -/
theorem write_proceeds {data : HostData} {values : Array Scalar} (hrange : InRange d offset count)
    (hvalues : data.elements d.type count.toNat = .ok values) (hsize : values.size = count.toNat) :
    (write offset count data blocking).Proceeds
    (Ends Call.stores d offset count values.toList blocking ys)
      d ys := by
  have hchecked := hrange.checkRange
  obtain ⟨hoffset, hcount, hroom⟩ := hrange
  obtain ⟨offset, rfl⟩ := Int.eq_ofNat_of_zero_le hoffset
  obtain ⟨count, rfl⟩ := Int.eq_ofNat_of_zero_le (Int.le_of_lt hcount)
  have htransfers : Transfers Call.stores d offset count values.toList
      ((d.pieces offset count).map fun p => (p.writing values).call) :=
    transfers_pieces (by simpa using hsize) (by omega) fun p hp => stores_writing (hsize ▸ hp)
  have hdevice : ∀ p : Piece, (p.writing values).device = p.device := fun _ => rfl
  rw [Task.Proceeds, write, Task.ensures_ite]
  refine ⟨fun hzero => absurd hzero (by omega), fun _ => ?_⟩
  simp only [Vector.checkRange, Task.ensures_bind, Task.ensures_get, ensures_orFault,
    Task.ensures_ite, Task.ensures_throw, Task.ensures_pure, hchecked, hvalues]
  -- neither the range nor the numbers are refused
  refine ⟨fun _ _ => ⟨?_, fun _ hrefused => by cases hrefused⟩, fun _ hrefused => by cases hrefused⟩
  rintro _ ⟨⟩
  refine ⟨fun hshort => absurd hshort (by omega), fun _ => ?_⟩
  rw [startWrites_eq]
  refine Task.Ensures.imp start_proceeds ?_ ?_
  · intro _ d' ys' hstarted
    refine ⟨fun hblocking => ?_, fun hblocking => ?_⟩
    · rw [hblocking]
      exact waitFor_proceeds.imp fun _ _ _ => hstarted.ends_awaited htransfers hdevice
    · exact hstarted.ends htransfers (.inl (Bool.eq_false_of_not_eq_true hblocking))
  · rintro _ d' ys' ⟨f, rfl, hstarted⟩
    exact ⟨f, rfl, hstarted.ends htransfers (.inr (Option.some_ne_none f))⟩

/-- A write refuses other ranges, numbers that do not fit, and too few numbers. -/
theorem write_refused {μ : Type} {K : Contract μ} {m : μ} {data : HostData} (hcount : count ≠ 0)
    (hbad : ∀ values, InRange d offset count → data.elements d.type count.toNat = .ok values →
      values.size < count.toNat) :
    (write offset count data blocking).Ensures K (fun _ _ _ => False)
      (fun _ d' m' => d' = d ∧ m' = m) d m := by
  rw [write, Task.ensures_ite]
  refine ⟨fun hzero => absurd hzero hcount, fun _ => ?_⟩
  simp only [Vector.checkRange, Task.ensures_bind, Task.ensures_get, ensures_orFault,
    Task.ensures_ite, Task.ensures_throw, and_self, implies_true, and_true]
  -- the range is checked first, then the numbers are converted, and then they are counted
  intro _ hchecked values hvalues
  have hrange : InRange d offset count := by
    obtain ⟨hoffset, hcount', hroom⟩ := checkRange_eq_ok hchecked
    exact ⟨hoffset, by omega, hroom⟩
  have hshort := hbad values hrange hvalues
  exact ⟨trivial, fun henough => absurd hshort (by omega)⟩

/-- Where a read into an array puts its elements. -/
def slots (view : HostView) (count : Int) : List (CellId × Nat) :=
  (List.range count.toNat).map fun j => (view.cell, view.offset + j)

/-- A read into an array gives the commands of its range. -/
theorem readInto_ends {view : HostView} (hrange : InRange d offset count)
    (hroom : count ≤ view.size) : (readInto offset count blocking view).Ensures .exchanging
      (fun view' d' ys' => view' = view ∧
        Ends Call.loads d offset count (slots view count) blocking ys none d' ys')
      (fun e d' ys' => ∃ f, e = .device f ∧
        Ends Call.loads d offset count (slots view count) blocking ys (some f) d' ys') d ys := by
  have hchecked := hrange.checkRange
  obtain ⟨hoffset, hcount, hinside⟩ := hrange
  obtain ⟨offset, rfl⟩ := Int.eq_ofNat_of_zero_le hoffset
  obtain ⟨count, rfl⟩ := Int.eq_ofNat_of_zero_le (Int.le_of_lt hcount)
  have htransfers : Transfers Call.loads d offset count (slots view count)
      ((d.pieces offset count).map fun p => (p.reading view).call) :=
    transfers_pieces (by simp [slots]) (by omega) fun p hp => loads_reading hp
  have hdevice : ∀ p : Piece, (p.reading view).device = p.device := fun _ => rfl
  rw [readInto, Task.ensures_ite]
  refine ⟨fun hzero => absurd hzero (by omega), fun _ => ?_⟩
  simp only [Vector.checkRange, Task.ensures_bind, Task.ensures_get, ensures_orFault,
    Task.ensures_ite, Task.ensures_throw, Task.ensures_pure, hchecked, Int.toNat_natCast]
  -- neither the range nor the array is refused
  refine ⟨fun _ _ => ⟨fun hshort => absurd hshort (by omega), fun _ => ?_⟩,
    fun _ hrefused => by cases hrefused⟩
  rw [startReads_eq]
  refine Task.Ensures.imp start_proceeds ?_ ?_
  · intro _ d' ys' hstarted
    refine ⟨fun hblocking => ?_, fun hblocking => ⟨trivial, ?_⟩⟩
    · rw [hblocking]
      refine Task.Ensures.imp waitFor_proceeds ?_ ?_
      · exact fun _ d'' ys'' hwaits => ⟨trivial, hstarted.ends_awaited htransfers hdevice hwaits⟩
      · rintro _ d'' ys'' ⟨f, rfl, hwaits⟩
        exact ⟨f, rfl, hstarted.ends_awaited htransfers hdevice hwaits⟩
    · exact hstarted.ends htransfers (.inl (Bool.eq_false_of_not_eq_true hblocking))
  · rintro _ d' ys' ⟨f, rfl, hstarted⟩
    exact ⟨f, rfl, hstarted.ends htransfers (.inr (Option.some_ne_none f))⟩

/-- The array that a read is given suits elements of a type. -/
def ReadTarget.Suits (type : ElementType) : ReadTarget → Prop
  | .fresh => True
  | .array view => view.type = .element type ∧ view.contiguous = true ∧ view.writeable = true
  | .unsuitable => False

/-- There is room for a number of elements. -/
def ReadTarget.Holds (count : Int) : ReadTarget → Prop
  | .array view => count ≤ view.size
  | _ => True

/-- The array that a read returns: the given one, or a new one. -/
def ReadTarget.Gives (type : ElementType) (count : Int) : ReadTarget → HostView → Prop
  | .array view, view' => view' = view
  | _, view' => view' = ⟨view'.cell, 0, .element type, [count.toNat], true, true⟩

theorem ensures_ask_hostArray {n : Nat} {type : DataType} {good : CellId → List Exchange → Prop} :
    (Program.ask (.hostArray n type)).Ensures .exchanging good ys ↔ ∀ c, good c ys := by
  rw [Program.ensures_ask]
  refine ⟨fun h c => h.2 c ys (List.append_nil ys).symm, fun h => ⟨trivial, ?_⟩⟩
  rintro c _ rfl
  rw [show deviceSide [⟨.hostArray n type, c⟩] = [] from rfl, List.append_nil]
  exact h c

/-- A read chooses its array without asking devices. It refuses an array that does not suit. -/
theorem target_ensures {goal : ReadTarget} {type : ElementType} :
    (target type count goal).Ensures .exchanging
      (fun view d' ys' => d' = d ∧ ys' = ys ∧ goal.Suits type ∧ goal.Gives type count view)
      (fun e d' ys' => d' = d ∧ ys' = ys ∧
        (goal.Suits type ∧ count < 0 ∨ ¬ goal.Suits type ∧ e = .vector (.unsuitableTarget type)))
      d ys := by
  cases goal with
  | fresh =>
    rw [target, Task.ensures_ite]
    refine ⟨fun hneg => ⟨rfl, rfl, .inl ⟨trivial, hneg⟩⟩, fun _ => ?_⟩
    rw [newArray, Task.ensures_bind, Task.ensures_perform, ensures_ask_hostArray]
    exact fun c => ⟨rfl, rfl, trivial, rfl⟩
  | array view =>
    rw [target, Task.ensures_ite]
    exact ⟨fun hsuits => ⟨rfl, rfl, hsuits, rfl⟩, fun hsuits => ⟨rfl, rfl, .inr ⟨hsuits, rfl⟩⟩⟩
  | unsuitable => exact ⟨rfl, rfl, .inr ⟨id, rfl⟩⟩

theorem size_of_gives {goal : ReadTarget} {type : ElementType} {view : HostView}
    (hgives : goal.Gives type count view) (hroom : goal.Holds count) : count ≤ view.size := by
  cases goal with
  | array given => exact hgives ▸ hroom
  | fresh | unsuitable =>
    rw [HostView.size, congrArg HostView.shape hgives]
    simp [volume]

variable {goal : ReadTarget}

/-- A read gives the commands of its range. -/
theorem read_ends (hrange : InRange d offset count) (hsuits : goal.Suits d.type)
    (hroom : goal.Holds count) :
    (read offset count goal blocking).Ensures .exchanging
      (fun view d' ys' => goal.Gives d.type count view ∧
        Ends Call.loads d offset count (slots view count) blocking ys none d' ys')
      (fun e d' ys' => ∃ view f, e = .device f ∧ goal.Gives d.type count view ∧
        Ends Call.loads d offset count (slots view count) blocking ys (some f) d' ys') d ys := by
  rw [read_eq]
  simp only [Task.ensures_bind, Task.ensures_get]
  refine target_ensures.imp ?_ ?_
  · rintro view d' ys' ⟨rfl, rfl, -, hgives⟩
    refine (readInto_ends hrange (size_of_gives hgives hroom)).imp ?_ ?_
    · rintro _ d'' ys'' ⟨rfl, hends⟩
      exact ⟨hgives, hends⟩
    · rintro _ d'' ys'' ⟨f, rfl, hends⟩
      exact ⟨view, f, rfl, hgives, hends⟩
  · rintro e d' ys' ⟨-, -, ⟨-, hneg⟩ | ⟨hnot, -⟩⟩
    · exact absurd hrange.2.1 (Int.not_lt.mpr (Int.le_of_lt hneg))
    · exact absurd hsuits hnot

/-- A read of no elements returns its array. -/
theorem read_empty (hsuits : goal.Suits d.type) :
    (read offset 0 goal blocking).Ensures .exchanging
      (fun view d' ys' => (d' = d ∧ ys' = ys) ∧ goal.Gives d.type 0 view)
      (fun _ d' ys' => (d' = d ∧ ys' = ys) ∧ False) d ys := by
  rw [read_eq]
  simp only [Task.ensures_bind, Task.ensures_get]
  refine target_ensures.imp ?_ ?_
  · rintro view d' ys' ⟨rfl, rfl, -, hgives⟩
    rw [readInto, if_pos rfl]
    exact ⟨⟨rfl, rfl⟩, hgives⟩
  · rintro e d' ys' ⟨-, -, ⟨-, hneg⟩ | ⟨hnot, -⟩⟩
    · exact absurd hneg (Int.lt_irrefl 0)
    · exact absurd hsuits hnot

/-- A read refuses an array that does not suit, whatever the range; and else other ranges, and an
array with too little room. -/
theorem read_refused (hbad : goal.Suits d.type →
    count ≠ 0 ∧ (InRange d offset count → ¬ goal.Holds count)) :
    (read offset count goal blocking).Ensures .exchanging
    (fun _ d' ys' => (d' = d ∧ ys' = ys) ∧ False)
      (fun e d' ys' => (d' = d ∧ ys' = ys) ∧
        (¬ goal.Suits d.type → e = .vector (.unsuitableTarget d.type))) d ys := by
  rw [read_eq]
  simp only [Task.ensures_bind, Task.ensures_get]
  refine target_ensures.imp ?_ ?_
  · rintro view d' ys' ⟨rfl, rfl, hsuits, hgives⟩
    obtain ⟨hcount, hbad⟩ := hbad hsuits
    rw [readInto, if_neg hcount]
    simp only [Vector.checkRange, Task.ensures_bind, Task.ensures_get, ensures_orFault,
      Task.ensures_ite, Task.ensures_throw]
    refine ⟨fun _ hchecked => ⟨fun _ => ⟨⟨trivial, trivial⟩, fun h => absurd hsuits h⟩,
      fun henough => ?_⟩, fun _ _ => ⟨⟨trivial, trivial⟩, fun h => absurd hsuits h⟩⟩
    -- only a given array can be too short
    have hrange : InRange d' offset count := by
      obtain ⟨hoffset, hcount', hroom⟩ := checkRange_eq_ok hchecked
      exact ⟨hoffset, by omega, hroom⟩
    refine absurd ?_ (hbad hrange)
    cases goal with
    | array given => exact Int.not_lt.mp (hgives ▸ henough)
    | fresh | unsuitable => trivial
  · rintro e d' ys' ⟨rfl, rfl, ⟨hsuits, -⟩ | ⟨-, rfl⟩⟩
    · exact ⟨⟨rfl, rfl⟩, fun h => absurd hsuits h⟩
    · exact ⟨⟨rfl, rfl⟩, fun _ => rfl⟩

end Vectors

end Vector

end DistributedVector
