import DistributedVector.Proofs.Cursors
import DistributedVector.Proofs.Slices

/-!
# Ranges of host arrays

A range is copied between a vector and a host array of one axis by a transfer. The range of the
vector has to lie in it. The range of the array is a slice, which counts positions from the end
where they are negative; a range that starts and ends in front of the array is therefore one of its
last rows. Everything that does not suit is refused before devices are asked for anything.

## Main definitions

* `hostRange?` — the rows that a range of a host array is
* `ToHost`, `ToVector` — which copies are carried out
* `CopiedToHost`, `CopiedToVector` — what they leave

## Main results

* `Store.Valid.copyRange_exactly` — copies of ranges in both directions, in all cases
-/

namespace DistributedVector

open DistributedVector.Vector

/-- The first of `count` rows that a slice from a position on has, among `n` rows; `none` if it has
fewer. Where a slice starts and stops in front of the first row it is counted from the end. -/
def hostRange? (n : Nat) (position count : Int) : Option Nat :=
  if 0 ≤ position ∧ position + count ≤ n then some position.toNat
  else if -(n : Int) ≤ position ∧ position + count < 0 then some (position + n).toNat
  else none

/-! ## Rows of arrays

The rows of a slice are those of a range, or fewer than there are elements to copy. -/

/-- Consecutive rows of a host array of one axis. -/
def HostView.rows (host : HostView) (first count : Nat) : HostView :=
  { host with
    offset := host.offset + first
    shape := [count]
    contiguous := host.contiguous || count ≤ 1 }

/-- The rows of a host array of `n` rows that a slice has. -/
def HostView.sliceRows (host : HostView) (n : Nat) (start stop : Int) : HostView :=
  host.rows (Slice.clamp n 0 n start).toNat (Slice.clamp n 0 n stop - Slice.clamp n 0 n start).toNat

section Rows

variable {m : Memory} {host : HostView} {n i first count : Nat} {start stop position length : Int}

namespace HostView

theorem size_rows : (host.rows first count).size = count := by simp [rows, size, volume]

theorem size_of_shape (hshape : host.shape = [n]) : host.size = n := by simp [size, hshape, volume]

theorem slice_eq_rows (hshape : host.shape = [n]) :
    host.slice start stop = .ok (host.sliceRows n start stop) := by
  simp [slice, hshape, sliceRows, rows, volume]

/-- A slice has the rows of a range, if the array has them. -/
theorem sliceRows_of_range (hlength : 0 ≤ length) (h : hostRange? n position length = some i) :
    host.sliceRows n position (position + length) = host.rows i length.toNat := by
  unfold hostRange? at h
  unfold sliceRows Slice.clamp
  split at h
  · cases h
    rw [if_neg (by omega), if_neg (by omega)]
    congr 1 <;> omega
  · split at h
    · cases h
      rw [if_pos (by omega), if_pos (by omega)]
      congr 1 <;> omega
    · cases h

/-- A slice has too few rows, if the array does not have those of the range. -/
theorem size_sliceRows_lt (hlength : 0 < length) (h : hostRange? n position length = none) :
    (host.sliceRows n position (position + length)).size < length := by
  unfold hostRange? at h
  rw [sliceRows, size_rows]
  unfold Slice.clamp
  split at h
  · cases h
  · split at h
    · cases h
    · -- either end may be counted from the end of the array
      split <;> split <;> omega

/-- The values of rows are a part of those of the array. -/
theorem values_rows (hshape : host.shape = [n]) (hroom : first + count ≤ n) :
    (host.rows first count).values m = part first count (host.values m) := by
  rw [values, size_rows, values, size_of_shape hshape, part]
  simp only [rows, Int.toNat_natCast, List.drop_take, List.drop_drop, List.take_take]
  congr 1
  omega

end HostView

end Rows

namespace Store

variable {S : Store} {v : VectorId} {host : HostView} {n : Nat}

theorem collect_array {m : Memory} {view : HostView} (h : (S.plain m).Shows view) :
    (S.plain m).collect (.array view) = some ⟨view.type, view.shape, (view.values m).toArray⟩ := by
  obtain ⟨a, ha, -⟩ := h
  have hvalues : view.values m = (a.extract view.offset (view.offset + view.size)).toList := by
    rw [toList_part, HostView.values, show m.cell view.cell = some a from ha]
    rfl
  rw [hvalues, Array.toArray_toList]
  simp only [Plain.collect, Plain.view, ha]
  rfl

theorem slice_runFrom (hshape : host.shape = [n]) {start stop : Int} :
    ((Collection.array host).slice start stop).runFrom S =
      pure (.ok (.array (host.sliceRows n start stop)), S) := by
  simp only [Collection.slice, HostView.slice_eq_rows hshape]
  rfl

/-- A copy to a host array is a read into some of its rows. -/
theorem copyRange_toHost_runFrom (hshape : host.shape = [n]) {p p' q : Int} {k k' : Nat}
    {id : CollectionId} {blocking : Bool} :
    (copyRange (.vector ⟨v, p, k⟩) (.vector ⟨v, p', k'⟩) (.host ⟨id, .array host, q⟩)
      blocking).runFrom S = if p' - p < 0 then pure (.error (.copy .reversed), S)
      else if n < q + (p' - p) then pure (.error (.copy .hostTooShort), S)
      else (do
        let _ ← onVector v (Vector.read p (p' - p)
          (.array (host.sliceRows n q (q + (p' - p)))) blocking)
        shift (.host ⟨id, .array host, q⟩) (p' - p) : Task Store Cursor).runFrom S := by
  have hlength : (Collection.array host).length.runFrom S = pure (.ok n, S) := by
    simp only [Collection.length, HostView.length, hshape]
    rfl
  rw [copyRange, if_neg (by simp [Cursor.isVector]), if_neg (by simp [Cursor.isVector]),
    Task.runFrom_bind_of_ok (a := p' - p) rfl]
  by_cases hneg : p' - p < 0
  · simp only [if_pos hneg]
    rfl
  · simp only [if_neg hneg, Task.runFrom_bind_of_ok hlength]
    by_cases hshort : n < q + (p' - p)
    · simp only [if_pos hshort]
      rfl
    · simp only [if_neg hshort, Task.runFrom_bind_of_ok (slice_runFrom hshape)]
      rfl

/-- A copy from a host array is a write of some of its rows. -/
theorem copyRange_toVector_runFrom (hshape : host.shape = [n]) {p q q' : Int} {k : Nat}
    {id : CollectionId} {blocking : Bool} :
    (copyRange (.host ⟨id, .array host, q⟩) (.host ⟨id, .array host, q'⟩) (.vector ⟨v, p, k⟩)
        blocking).runFrom S =
      if q' - q < 0 then pure (.error (.copy .reversed), S)
      else (do
        write v p (q' - q) (.array (host.sliceRows n q (q + (q' - q)))) blocking
        shift (.vector ⟨v, p, k⟩) (q' - q) : Task Store Cursor).runFrom S := by
  rw [copyRange, if_neg (by simp [Cursor.isVector]), if_neg (by simp [Cursor.isVector]),
    Task.runFrom_bind_of_ok (a := q' - q) rfl]
  by_cases hneg : q' - q < 0
  · simp only [if_pos hneg]
    rfl
  · simp only [if_neg hneg, Task.runFrom_bind_of_ok (slice_runFrom hshape)]

end Store

/-! ## Outcomes

Copies are carried out exactly if the transfer of the rows of the slice is accepted. The conditions
for this are stated for positions, and not for the rows. -/

/-- A copy of a range to a host array that is carried out: the range of the vector lies in it, and
that of the array is some of its rows. The array has the type of the vector, and lies in one
piece. -/
structure ToHost (d : Descriptor) (host : HostView) (n : Nat) (p q count : Int) : Prop where
  forward : 0 ≤ count
  room : q + count ≤ n
  type : host.type = .element d.type
  contiguous : host.contiguous = true ∨ count ≤ 1
  writeable : host.writeable = true
  ranges : count ≠ 0 → InRange d p count ∧ ∃ i, hostRange? n q count = some i

/-- A copy of a range from a host array that is carried out: the range of the vector lies in it, and
that of the array is some of its rows, which can be converted. -/
structure ToVector (m : Memory) (d : Descriptor) (host : HostView) (n : Nat) (p q count : Int) :
    Prop where
  forward : 0 ≤ count
  ranges : count ≠ 0 → InRange d p count ∧ ∃ i values, hostRange? n q count = some i ∧
    (part i count (host.values m)).mapM (d.type.cast host.type) = .ok values

section Acceptance

variable {m : Memory} {d : Descriptor} {host : HostView} {n i : Nat} {p q count : Int}

theorem le_of_hostRange? (hcount : 0 ≤ count) (h : hostRange? n q count = some i) :
    i + count.toNat ≤ n := by
  unfold hostRange? at h
  split at h
  · cases h
    omega
  · split at h
    · cases h
      omega
    · cases h

theorem suits_rows {first c : Nat} {type : ElementType} :
    (ReadTarget.array (host.rows first c)).Suits type ↔
    host.type = .element type ∧ (host.contiguous = true ∨ c ≤ 1) ∧ host.writeable = true := by
  simp [ReadTarget.Suits, HostView.rows]

/-- A copy to a host array is carried out if the rows of the slice suit the read, and have room for
it. -/
theorem toHost_iff (hforward : 0 ≤ count) (hroom : q + count ≤ n) : ToHost d host n p q count ↔
    (ReadTarget.array (host.sliceRows n q (q + count))).Suits d.type ∧ (count ≠ 0 →
      InRange d p count ∧ (ReadTarget.array (host.sliceRows n q (q + count))).Holds count) := by
  rcases eq_or_ne count 0 with rfl | hcount
  · -- a slice that stops where it starts has no rows, and lies in one piece
    have hnone : (Slice.clamp n 0 n (q + 0) - Slice.clamp n 0 n q).toNat = 0 := by
      rw [Int.add_zero, Int.sub_self, Int.toNat_zero]
    rw [HostView.sliceRows, hnone, suits_rows]
    exact ⟨fun h => ⟨⟨h.type, .inr (Nat.zero_le 1), h.writeable⟩, fun hne => absurd rfl hne⟩,
      fun h => ⟨hforward, hroom, h.1.1, .inr (by omega), h.1.2.2, fun hne => absurd rfl hne⟩⟩
  · cases hrange : hostRange? n q count with
    | none =>
      have hshort : (host.sliceRows n q (q + count)).size < count :=
        HostView.size_sliceRows_lt (lt_of_le_of_ne hforward (Ne.symm hcount)) hrange
      refine ⟨fun h => ?_, fun h => absurd (h.2 hcount).2 (Int.not_le.mpr hshort)⟩
      obtain ⟨i, hi⟩ := (h.ranges hcount).2
      cases hi.symm.trans hrange
    | some i =>
      have hholds : (ReadTarget.array (host.rows i count.toNat)).Holds count := by
        rw [ReadTarget.Holds, HostView.size_rows]
        omega
      rw [HostView.sliceRows_of_range hforward hrange, suits_rows]
      exact ⟨fun h => ⟨⟨h.type, h.contiguous.imp_right fun hone => by omega, h.writeable⟩,
          fun hne => ⟨(h.ranges hne).1, hholds⟩⟩,
        fun h => ⟨hforward, hroom, h.1.1, h.1.2.1.imp_right fun hone => by omega, h.1.2.2,
          fun hne => ⟨(h.2 hne).1, i, hrange⟩⟩⟩

/-- What the rows of a slice hold. -/
def HostView.sliceData (host : HostView) (m : Memory) (n : Nat) (start stop : Int) : HostData :=
  ⟨host.type, (host.sliceRows n start stop).shape, ((host.sliceRows n start stop).values m).toArray⟩

theorem length_values (hshape : host.shape = [n]) (hvalid : host.Valid m) :
    (host.values m).length = n := by
  obtain ⟨a, ha, hroom⟩ := hvalid
  rw [HostView.size_of_shape hshape] at hroom
  rw [HostView.values, ha, HostView.size_of_shape hshape]
  simp
  omega

/-- The rows of a range, and what they are converted to. -/
theorem sliceData_of_range (hshape : host.shape = [n]) (hvalid : host.Valid m)
    (hforward : 0 ≤ count) (hrange : hostRange? n q count = some i) :
    (host.sliceData m n q (q + count)).values.size = count.toNat ∧ ∀ t : ElementType,
      (host.sliceData m n q (q + count)).elements t count.toNat =
        ((part i count (host.values m)).mapM (t.cast host.type)).map (·.toArray) := by
  have hroom := le_of_hostRange? hforward hrange
  have hlength : (part (i : Int) count (host.values m)).length = count.toNat :=
    length_part (.inr ⟨Int.natCast_nonneg i, hforward, by rw [length_values hshape hvalid]; omega⟩)
  have hvalues : (host.sliceData m n q (q + count)).values =
      (part i count (host.values m)).toArray := by
    rw [HostView.sliceData, HostView.sliceRows_of_range hforward hrange,
      HostView.values_rows hshape hroom]
    rfl
  refine ⟨by rw [hvalues, List.size_toArray, hlength], fun t => ?_⟩
  rw [HostData.elements, hvalues, List.toList_toArray,
    List.take_of_length_le (Nat.le_of_eq hlength)]
  rfl

/-- A copy from a host array is carried out if the rows of the slice are enough, and can be
converted. -/
theorem toVector_iff (hshape : host.shape = [n]) (hvalid : host.Valid m) (hforward : 0 ≤ count) :
    ToVector m d host n p q count ↔ (count ≠ 0 → InRange d p count ∧
      count ≤ (host.sliceData m n q (q + count)).values.size ∧
      ∃ values, (host.sliceData m n q (q + count)).elements d.type count.toNat = .ok values) := by
  rcases eq_or_ne count 0 with rfl | hcount
  · exact ⟨fun _ hne => absurd rfl hne, fun _ => ⟨hforward, fun hne => absurd rfl hne⟩⟩
  · have hall : ToVector m d host n p q count ↔
      (InRange d p count ∧ ∃ i values, hostRange? n q count = some i ∧
        (part i count (host.values m)).mapM (d.type.cast host.type) = .ok values) :=
      ⟨fun h => h.ranges hcount, fun h => ⟨hforward, fun _ => h⟩⟩
    rw [hall, imp_iff_right hcount, and_congr_right_iff]
    intro _
    -- where the array does not have the rows the slice has too few of them, which the write refuses
    cases hrange : hostRange? n q count with
    | none =>
      have hshort : (host.sliceRows n q (q + count)).size < count :=
        HostView.size_sliceRows_lt (lt_of_le_of_ne hforward (Ne.symm hcount)) hrange
      have hfew : (host.sliceData m n q (q + count)).values.size ≤
          (host.sliceRows n q (q + count)).size := by
        rw [HostView.sliceData, List.size_toArray, HostView.values]
        exact List.length_take_le _ _
      constructor
      · rintro ⟨_, _, ⟨⟩, _⟩
      · exact fun h => absurd h.1 (by omega)
    | some i =>
      obtain ⟨hsize, helements⟩ := sliceData_of_range hshape hvalid hforward hrange
      rw [hsize, helements]
      constructor
      · rintro ⟨_, values, ⟨⟩, hvalues⟩
        exact ⟨by omega, values.toArray, map_eq_ok_iff.mpr ⟨values, hvalues, rfl⟩⟩
      · rintro ⟨-, _, hvalues⟩
        obtain ⟨values, hvalues, -⟩ := map_eq_ok_iff.mp hvalues
        exact ⟨i, values, rfl, hvalues⟩

end Acceptance

/-- Elements of a vector have been laid over a host array from a row on. Events have been noted in
the vector, and nothing else has changed. -/
structure CopiedToHost (S : Store) (m : Memory) (v : VectorId) (d : Descriptor) (p count : Int)
    (host : HostView) (i : Nat) (S' : Store) (m' : Memory) : Prop where
  store : ∃ d', S' = { S with vectors := S.vectors.setIfInBounds v d' } ∧ d'.forget = d.forget
  memory : m.Differs [] [host.cell] m'
  array : ∃ a a', m.cell host.cell = some a ∧ m'.cell host.cell = some a' ∧
    a'.toList = overlay (host.offset + i) (part p count (d.contents m)) a.toList

/-- Rows of a host array have been converted and laid over a vector. Events have been noted in the
vector, and nothing else has changed. -/
structure CopiedToVector (S : Store) (m : Memory) (v : VectorId) (d : Descriptor) (p count : Int)
    (host : HostView) (i : Nat) (S' : Store) (m' : Memory) : Prop where
  store : ∃ d', S' = { S with vectors := S.vectors.setIfInBounds v d' } ∧ d'.forget = d.forget
  memory : m.Differs d.buffers [] m'
  vector : ∃ values, (part i count (host.values m)).mapM (d.type.cast host.type) = .ok values ∧
    d.contents m' = overlay p.toNat values (d.contents m)

/-- Events do not matter for the shard of a position. -/
theorem Descriptor.shardAt_of_forget {d d' : Descriptor} (h : d'.forget = d.forget)
    (position : Int) : d'.shardAt position = d.shardAt position := by
  have hboundaries := boundaries_of_forget h
  have hlength := congrArg List.length hboundaries
  rw [length_boundaries, length_boundaries, Nat.succ_inj] at hlength
  rw [shardAt, shardAt, boundariesUpTo, boundariesUpTo, hboundaries, hlength]

/-- What a copy of a range leaves that no device has interrupted: a result, a store, and a memory. A
copy that is not accepted is refused, and changes nothing. Else the position behind the copy is
returned; nothing changes for no elements. -/
structure RangeOutcome (accepted : Prop) (count : Int) (behind : Cursor)
    (copied : Store → Memory → Prop) (S : Store) (m : Memory) (r : Except Fault Cursor) (S' : Store)
    (m' : Memory) : Prop where
  refused : ¬ accepted → (∃ e, r = .error e) ∧ S' = S ∧ m.Differs [] [] m'
  empty : accepted → count = 0 → r = .ok behind ∧ S' = S ∧ m.Differs [] [] m'
  copied : accepted → count ≠ 0 → r = .ok behind ∧ copied S' m'

theorem RangeOutcome.of_refused {accepted : Prop} {count : Int} {behind : Cursor}
    {copied : Store → Memory → Prop} {S : Store} {m m' : Memory} (hnot : ¬ accepted) {e : Fault}
    (hm : m.Differs [] [] m') : RangeOutcome accepted count behind copied S m (.error e) S m' :=
  ⟨fun _ => ⟨⟨e, rfl⟩, rfl, hm⟩, fun hacc => absurd hacc hnot, fun hacc => absurd hacc hnot⟩

section Refusals

variable {S S' : Store} {m m' : Memory} {v : VectorId} {d : Descriptor} {offset count : Int}
  {blocking : Bool} {ys : List Exchange}

/-- A read that cannot be carried out is refused before devices are asked for anything. -/
theorem Store.ReadOutcome.refused_of_not {goal : ReadTarget} {r : Except Fault HostView}
    (h : ReadOutcome S m v d offset count goal blocking r S' m' ys)
    (hnot : ¬ (goal.Suits d.type ∧ (count ≠ 0 → InRange d offset count ∧ goal.Holds count))) :
    (∃ e, r = .error e) ∧ S' = S ∧ ys = [] := by
  by_cases hsuits : goal.Suits d.type
  · rw [and_iff_right hsuits, Classical.not_imp, not_and_or] at hnot
    exact h.refused hsuits hnot.1 hnot.2
  · obtain ⟨⟨e, he, -⟩, hsame⟩ := h.unsuitable hsuits
    exact ⟨⟨e, he⟩, hsame⟩

/-- A write that cannot be carried out is refused before devices are asked for anything. -/
theorem Store.WriteOutcome.refused_of_not {gentle : Prop} {data : HostData} {r : Except Fault Unit}
    (h : WriteOutcome gentle S m v d offset count data blocking r S' m' ys)
    (hnot : ¬ (count ≠ 0 → InRange d offset count ∧ count ≤ data.values.size ∧
      ∃ values, data.elements d.type count.toNat = .ok values)) :
    (∃ e, r = .error e) ∧ S' = S ∧ ys = [] := by
  rw [Classical.not_imp, not_and_or, not_and_or, Int.not_le] at hnot
  refine h.refused hnot.1 (hnot.2.imp_right (Or.imp_right fun hnone => ?_))
  cases hvalues : data.elements d.type count.toNat with
  | ok values => exact absurd ⟨values, hvalues⟩ hnone
  | error f => exact ⟨f, rfl⟩

end Refusals

section Runs

variable {α β σ τ V : Type} {A : Arithmetic V} {F : Fleet} {h : Handler σ}
  {view : σ → Memory} {x x' : σ}

/-- A task that is followed by one that asks for nothing. -/
theorem Task.run_bind_of_pure {t : Task τ α} {f : α → Task τ β} {s s' : τ}
    {r : Except Fault α} {g : α → β} (ht : (t.runFrom s).run h x = ((r, s'), x'))
    (hf : ∀ a, r = .ok a → (f a).runFrom s' = pure (.ok (g a), s')) :
    ((t >>= f).runFrom s).run h x = ((r.map g, s'), x') ∧
    (t >>= f).commands h s x = t.commands h s x := by
  rw [commands, commands, runFrom_bind, Program.run_bind, Program.exchanges_bind, ht]
  cases r with
  | error e => exact ⟨rfl, by simp⟩
  | ok a =>
    simp only [hf a rfl, Program.exchanges_pure, List.append_nil]
    exact ⟨rfl, trivial⟩

open Store

variable {S S' : Store} {v : VectorId} {d : Descriptor} {host : HostView} {n : Nat}
  {id : CollectionId} {blocking : Bool} {r : Except Fault Cursor}
  (meets : h.Meets view (deviceContract A F.suits)) (hS : S.Valid F (view x))
  (hv : S.vectors[v]? = some d) (hshape : host.shape = [n]) (hhost : host.Valid (view x))
include meets hS

/-- A copy of a range that asks devices for nothing changes no memory. -/
theorem Store.Valid.copyRange_idle {first last result : Cursor}
    (hfirst : (S.plain (view x)).Reaches first) (hresult : (S.plain (view x)).Reaches result)
    (hrun : ((copyRange first last result blocking).runFrom S).run h x = ((r, S'), x'))
    (hidle : (copyRange first last result blocking).commands h S x = []) :
    (view x).Differs [] [] (view x') := by
  have hdiffers := Program.Ensures.differs_of_idle meets
    (copyRange_ensures (A := A) hS (.self (view x) S) hfirst hresult) hidle
  rwa [hrun] at hdiffers

include hv hshape hhost

/-- Copies to a host array, in all cases. -/
theorem Store.Valid.copyRange_toHost {p p' q : Int} {k k' : Nat}
    (hrun : ((copyRange (.vector ⟨v, p, k⟩) (.vector ⟨v, p', k'⟩) (.host ⟨id, .array host, q⟩)
      blocking).runFrom S).run h x = ((r, S'), x'))
    (hok : firstFault ((copyRange (.vector ⟨v, p, k⟩) (.vector ⟨v, p', k'⟩)
      (.host ⟨id, .array host, q⟩) blocking).commands h S x) = none) :
    RangeOutcome (ToHost d host n p q (p' - p)) (p' - p) (.host ⟨id, .array host, q + (p' - p)⟩)
      (fun S' m' => ∃ i, hostRange? n q (p' - p) = some i ∧
        CopiedToHost S (view x) v d p (p' - p) host i S' m') S (view x) r S' (view x') := by
  have hfirst : (S.plain (view x)).Reaches (.vector ⟨v, p, k⟩) := trivial
  have hresult : (S.plain (view x)).Reaches (.host ⟨id, .array host, q⟩) := ⟨hhost, nofun⟩
  have hidle := hS.copyRange_idle meets hfirst hresult hrun
  rw [Task.commands] at hok hidle
  rw [copyRange_toHost_runFrom hshape] at hrun hok hidle
  generalize p' - p = count at *
  by_cases hneg : count < 0
  · rw [if_pos hneg] at hrun hidle
    cases hrun
    exact .of_refused (fun h => Int.not_lt.mpr h.forward hneg) (hidle rfl)
  rw [if_neg hneg] at hrun hok hidle
  by_cases hshort : n < q + count
  · rw [if_pos hshort] at hrun hidle
    cases hrun
    exact .of_refused (fun h => Int.not_lt.mpr h.room hshort) (hidle rfl)
  rw [if_neg hshort] at hrun hok hidle
  -- a read of rows is left, which is followed by nothing that could fail
  obtain ⟨⟨⟨r₁, S₁⟩, x₁⟩, hread⟩ : ∃ y, ((onVector v (Vector.read p count
    (.array (host.sliceRows n q (q + count))) blocking)).runFrom S).run h x = y := ⟨_, rfl⟩
  obtain ⟨hall, hcommands⟩ := Task.run_bind_of_pure
    (g := fun _ => Cursor.host ⟨id, .array host, q + count⟩)
    (f := fun _ => shift (.host ⟨id, .array host, q⟩) count) hread fun _ _ => rfl
  cases hall.symm.trans hrun
  rw [← Task.commands, hcommands] at hok hidle
  have hrows : (ReadTarget.array (host.sliceRows n q (q + count))).Valid (view x) :=
    Plain.Shows.slice (p := S.plain (view x)) hhost (HostView.slice_eq_rows hshape)
  have houtcome := hS.read_outcome meets hv hrows hread rfl
  have hiff : ToHost d host n p q count ↔ _ :=
    toHost_iff (Int.not_lt.mp hneg) (Int.not_lt.mp hshort)
  refine ⟨fun hnot => ?_, fun hacc hzero => ?_, fun hacc hne => ?_⟩
  · obtain ⟨⟨e, rfl⟩, rfl, hnone⟩ := houtcome.refused_of_not (mt hiff.mpr hnot)
    exact ⟨⟨e, rfl⟩, rfl, hidle hnone⟩
  · obtain ⟨⟨array, rfl, -⟩, rfl, hnone⟩ := houtcome.empty (hiff.mp hacc).1 hzero
    exact ⟨rfl, rfl, hidle hnone⟩
  · obtain ⟨i, hi⟩ := (hacc.ranges hne).2
    obtain ⟨hsuits, hmoves⟩ := hiff.mp hacc
    obtain ⟨array, rfl, hgives, ⟨d', hstore, -, hsame, -⟩, hdiff, hfilled⟩ :=
      houtcome.moved hsuits (hmoves hne).1 (hmoves hne).2
    obtain ⟨a, a', ha', hlist, rfl, -, ha⟩ := hfilled hok
    rw [HostView.sliceRows_of_range hacc.forward hi] at hdiff ha' hlist ha
    rw [unlessFailed_of_none hok]
    exact ⟨rfl, i, hi, ⟨d', hstore, hsame⟩, hdiff, a, a', ha, ha', hlist⟩

/-- Copies from a host array, in all cases. -/
theorem Store.Valid.copyRange_toVector {p q q' : Int} {k : Nat}
    (hrun : ((copyRange (.host ⟨id, .array host, q⟩) (.host ⟨id, .array host, q'⟩)
      (.vector ⟨v, p, k⟩) blocking).runFrom S).run h x = ((r, S'), x'))
    (hok : firstFault ((copyRange (.host ⟨id, .array host, q⟩) (.host ⟨id, .array host, q'⟩)
      (.vector ⟨v, p, k⟩) blocking).commands h S x) = none) :
    RangeOutcome (ToVector (view x) d host n p q (q' - q)) (q' - q)
      (.vector ⟨v, p + (q' - q), d.shardAt (p + (q' - q))⟩)
      (fun S' m' => ∃ i, hostRange? n q (q' - q) = some i ∧
        CopiedToVector S (view x) v d p (q' - q) host i S' m') S (view x) r S' (view x') := by
  have hfirst : (S.plain (view x)).Reaches (.host ⟨id, .array host, q⟩) := ⟨hhost, nofun⟩
  have hresult : (S.plain (view x)).Reaches (.vector ⟨v, p, k⟩) := trivial
  have hidle := hS.copyRange_idle meets hfirst hresult hrun
  rw [Task.commands] at hok hidle
  rw [copyRange_toVector_runFrom hshape] at hrun hok hidle
  generalize q' - q = count at *
  by_cases hneg : count < 0
  · rw [if_pos hneg] at hrun hidle
    cases hrun
    exact .of_refused (fun h => Int.not_lt.mpr h.forward hneg) (hidle rfl)
  rw [if_neg hneg] at hrun hok hidle
  have hrows : (S.plain (view x)).Holds (.array (host.sliceRows n q (q + count))) :=
    Plain.Shows.slice (p := S.plain (view x)) hhost (HostView.slice_eq_rows hshape)
  have hdata : (S.plain (view x)).collect (.array (host.sliceRows n q (q + count))) =
      some (host.sliceData (view x) n q (q + count)) := collect_array hrows
  have hnotVector : ∀ w, Collection.array (host.sliceRows n q (q + count)) ≠ .vector w :=
    fun _ => nofun
  obtain ⟨⟨⟨r₁, S₁⟩, x₁⟩, hwrite⟩ : ∃ y, ((write v p count (.array (host.sliceRows n q (q + count)))
    blocking).runFrom S).run h x = y := ⟨_, rfl⟩
  have houtcome := hS.write_outcome meets hv hnotVector hrows hdata hwrite rfl
  -- the vector is still there, and its boundaries are as before
  have hshift : ∀ a, r₁ = .ok a → (shift (.vector ⟨v, p, k⟩) count).runFrom S₁ =
      pure (.ok (.vector ⟨v, p + count, d.shardAt (p + count)⟩), S₁) := by
    rintro a rfl
    have hlater : S.Later S₁ :=
      (write_within v p count (.array (host.sliceRows n q (q + count))) blocking S).of_run_ok
        h.meets_any hwrite
    obtain ⟨d₁, hv₁, hsame⟩ := exists_of_outline hlater.outline.symm hv
    rw [shift_runFrom hv₁ ⟨v, p, k⟩ rfl, Descriptor.shardAt_of_forget hsame]
  obtain ⟨hall, hcommands⟩ := Task.run_bind_of_pure hwrite hshift
  cases hall.symm.trans hrun
  rw [← Task.commands, hcommands] at hok hidle
  have hiff := toVector_iff (d := d) (p := p) (q := q) hshape hhost (Int.not_lt.mp hneg)
  refine ⟨fun hnot => ?_, fun _ hzero => ?_, fun hacc hne => ?_⟩
  · obtain ⟨⟨e, rfl⟩, rfl, hnone⟩ := houtcome.refused_of_not (mt hiff.mpr hnot)
    exact ⟨⟨e, rfl⟩, rfl, hidle hnone⟩
  · obtain ⟨rfl, rfl, hnone⟩ := houtcome.empty hzero
    exact ⟨rfl, rfl, hidle hnone⟩
  · obtain ⟨hrange, i, values, hi, hvalues⟩ := hacc.ranges hne
    obtain ⟨hsize, helements⟩ := sliceData_of_range hshape hhost hacc.forward hi
    obtain ⟨rfl, ⟨⟨d', hstore, -, hsame, -⟩, hdiff, hcontents⟩, -⟩ :=
      houtcome.moved values.toArray hrange (by omega) (by rw [helements, hvalues]; rfl)
    rw [unlessFailed_of_none hok]
    exact ⟨rfl, i, hi, ⟨d', hstore, hsame⟩, hdiff, values, hvalues, hcontents hok⟩

/-- Copies of ranges between a vector and a host array of one axis, in both directions and from all
positions. Only a range of the array that starts and ends in front of it is not where its positions
say, but at the end of the array. -/
theorem Store.Valid.copyRange_exactly :
    (∀ (p p' q : Int) (k k' : Nat) id blocking r S' x',
      ((copyRange (.vector ⟨v, p, k⟩) (.vector ⟨v, p', k'⟩) (.host ⟨id, .array host, q⟩)
        blocking).runFrom S).run h x = ((r, S'), x') →
      firstFault ((copyRange (.vector ⟨v, p, k⟩) (.vector ⟨v, p', k'⟩) (.host ⟨id, .array host, q⟩)
        blocking).commands h S x) = none →
      RangeOutcome (ToHost d host n p q (p' - p)) (p' - p) (.host ⟨id, .array host, q + (p' - p)⟩)
        (fun S' m' => ∃ i, hostRange? n q (p' - p) = some i ∧
          CopiedToHost S (view x) v d p (p' - p) host i S' m') S (view x) r S' (view x')) ∧
    ∀ (p q q' : Int) (k : Nat) id blocking r S' x',
      ((copyRange (.host ⟨id, .array host, q⟩) (.host ⟨id, .array host, q'⟩) (.vector ⟨v, p, k⟩)
        blocking).runFrom S).run h x = ((r, S'), x') →
      firstFault ((copyRange (.host ⟨id, .array host, q⟩) (.host ⟨id, .array host, q'⟩)
        (.vector ⟨v, p, k⟩) blocking).commands h S x) = none →
      RangeOutcome (ToVector (view x) d host n p q (q' - q)) (q' - q)
        (.vector ⟨v, p + (q' - q), d.shardAt (p + (q' - q))⟩)
        (fun S' m' => ∃ i, hostRange? n q (q' - q) = some i ∧
          CopiedToVector S (view x) v d p (q' - q) host i S' m') S (view x) r S' (view x') :=
  ⟨fun _ _ _ _ _ _ _ _ _ _ hrun hok => hS.copyRange_toHost meets hv hshape hhost hrun hok,
    fun _ _ _ _ _ _ _ _ _ hrun hok => hS.copyRange_toVector meets hv hshape hhost hrun hok⟩

end Runs

namespace Sample

/-- A vector and a host array into which it has been read. -/
def mirrored : Store × Machine.Executing := after (.read 0 0 3 .fresh true) vectors

/-- The array. -/
def mirror : HostView := ⟨0, 0, .element .int32, [3], true, true⟩

theorem reachable_mirrored : Reachable Machine.Executing.handle Machine.Executing.memory
    (.unrestricted hardware) mirrored.1 mirrored.2 :=
  reachable_after reachable_vectors trivial trivial

end Sample

/-- From three rows in front of the array on, one element is stored in the first row, which is three
rows before the end. From two rows in front of it on, one row is read, which is the second one. -/
theorem Store.Valid.copyRange_exactly_in_front :
    ∃ d S' x' S'' x'', Sample.mirrored.1.vectors[0]? = some d ∧
    Sample.run (copyRange (.vector ⟨0, 1, 1⟩) (.vector ⟨0, 2, 1⟩)
      (.host ⟨0, .array Sample.mirror, -3⟩) true)
      Sample.mirrored = ((.ok (.host ⟨0, .array Sample.mirror, -2⟩), S'), x') ∧
    CopiedToHost Sample.mirrored.1 Sample.mirrored.2.memory 0 d 1 1 Sample.mirror 0 S' x'.memory ∧
    x'.memory.cell 0 = some #[.int 7, .int 7, .int 0] ∧
    Sample.run (copyRange (.host ⟨0, .array Sample.mirror, -2⟩)
      (.host ⟨0, .array Sample.mirror, -1⟩)
      (.vector ⟨0, 2, 1⟩) true) Sample.mirrored = ((.ok (.vector ⟨0, 3, 1⟩), S''), x'') ∧
    CopiedToVector Sample.mirrored.1 Sample.mirrored.2.memory 0 d 2 1 Sample.mirror 1
      S'' x''.memory ∧
    d.contents x''.memory = [.int 0, .int 7, .int 7] := by
  have hvalid := Sample.reachable_mirrored.valid (Machine.Executing.meets _)
  obtain ⟨d, hd⟩ : ∃ d, Sample.mirrored.1.vectors[0]? = some d := ⟨_, rfl⟩
  have hhost : Sample.mirror.Valid Sample.mirrored.2.memory := ⟨_, rfl, by decide⟩
  obtain ⟨htoHost, htoVector⟩ := Store.Valid.copyRange_exactly (Machine.Executing.meets _) hvalid hd
    (show Sample.mirror.shape = [3] from rfl) hhost
  have hrange : InRange d 1 1 ∧ InRange d 2 1 ∧ d.shardAt 3 = 1 := by
    cases hd
    decide
  have htype : Sample.mirror.type = .element d.type := by
    cases hd
    rfl
  obtain ⟨values, hvalues⟩ : ∃ values, (part (1 : Nat) 1
    (Sample.mirror.values Sample.mirrored.2.memory)).mapM
      (d.type.cast Sample.mirror.type) = .ok values := by
    cases hd
    exact ⟨_, rfl⟩
  obtain ⟨hforth, i, hi, hcopied⟩ := (htoHost 1 2 (-3) 1 1 0 true _ _ _ rfl rfl).copied
    ⟨by decide, by decide, htype, .inl rfl, rfl, fun _ => ⟨hrange.1, 0, rfl⟩⟩ (by decide)
  have houtcome := htoVector 2 (-2) (-1) 1 0 true _ _ _ rfl rfl
  rw [show (-1 : Int) - -2 = 1 by decide, show (2 : Int) + 1 = 3 by decide, hrange.2.2] at houtcome
  obtain ⟨hback, j, hj, hcopied'⟩ := houtcome.copied
    ⟨by decide, fun _ => ⟨hrange.2.1, 1, values, rfl, hvalues⟩⟩ (by decide)
  obtain rfl : 0 = i := Option.some_inj.mp hi
  obtain rfl : 1 = j := Option.some_inj.mp hj
  refine ⟨d, _, _, _, _, hd, Prod.ext (Prod.ext hforth rfl) rfl, hcopied, rfl,
    Prod.ext (Prod.ext hback rfl) rfl, hcopied', ?_⟩
  cases hd
  rfl

end DistributedVector
