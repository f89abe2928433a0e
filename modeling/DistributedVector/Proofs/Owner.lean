import DistributedVector.Proofs.Transfer

/-!
# Elements are found where they are

The owner of a position is found by counting the boundaries up to it, also where shards without
elements repeat a boundary. Reading at the place found gives the element of the position, and
writing there changes this element only.
-/

namespace DistributedVector

theorem countP_boundariesOf_eq_zero {start : Nat} {ns : List Nat} {i : Nat} (h : i < start) :
    (boundariesOf start ns).countP (fun (b : Nat) => decide ((b : Int) ≤ i)) = 0 := by
  induction ns generalizing start with
  | nil => simp [boundariesOf]; omega
  | cons n rest ih =>
    rw [boundariesOf, List.countP_cons_of_neg (by simp; omega), ih (by omega)]

/-- The last range that starts at or before a position holds it, if any range does. -/
theorem exists_range {start : Nat} {ns : List Nat} {i : Nat} (hstart : start ≤ i)
    (h : i < start + total ns) : ∃ before n after, ns = before ++ n :: after ∧
      (boundariesOf start ns).countP (fun (b : Nat) => decide ((b : Int) ≤ i)) = before.length + 1 ∧
      start + total before ≤ i ∧ i < start + total before + n := by
  induction ns generalizing start with
  | nil => exact absurd h (by simp [total]; omega)
  | cons n rest ih =>
    rw [boundariesOf, List.countP_cons_of_pos (by simp; omega)]
    by_cases hin : i < start + n
    · refine ⟨[], n, rest, rfl, ?_, hstart, hin⟩
      rw [countP_boundariesOf_eq_zero hin]
      rfl
    · have hbehind : i < start + n + total rest := by
        rw [total] at h
        omega
      obtain ⟨before, k, after, rfl, hcount, hlower, hupper⟩ := ih (Nat.le_of_not_lt hin) hbehind
      refine ⟨n :: before, k, after, rfl, by rw [hcount]; rfl, ?_, ?_⟩ <;> rw [total] <;> omega

namespace Descriptor

/-- The shard that owns a position, with the shards before and behind it. -/
structure Owner (d : Descriptor) (i : Nat) (before : List Shard) (s : Shard) (after : List Shard) :
    Prop where
  shards : d.shards = before ++ s :: after
  index : Store.ownerOf d i = before.length
  start : d.starts.getD before.length 0 = total (before.map (·.length))
  lower : total (before.map (·.length)) ≤ i
  upper : i < total (before.map (·.length)) + s.length

theorem exists_owner {d : Descriptor} {i : Nat} (h : i < d.size) :
    ∃ before s after, d.Owner i before s after := by
  obtain ⟨before, n, after, hlengths, hcount, hlower, hupper⟩ :=
    exists_range (Nat.zero_le i) (by rwa [Nat.zero_add])
  obtain ⟨shards, rest, hshards, hbefore, hrest⟩ := List.map_eq_append_iff.mp hlengths
  obtain ⟨s, behind, rfl, rfl, hbehind⟩ := List.map_eq_cons_iff.mp hrest
  have hlength : before.length = shards.length := by rw [← hbefore, List.length_map]
  rw [Nat.zero_add, ← hbefore] at hlower hupper
  refine ⟨shards, s, behind, hshards, ?_, ?_, hlower, hupper⟩
  · rw [Store.ownerOf, boundariesUpTo, boundaries, hcount, hlength]
    rfl
  · have hget : d.boundaries.dropLast[shards.length]? =
        some (total (d.lengths.take shards.length)) := by
      have hlt : shards.length < d.lengths.length := by rw [hlengths]; simp [hlength]
      rw [boundaries, List.getElem?_dropLast, length_boundariesOf, if_pos (by omega),
        getElem?_boundariesOf (Nat.le_of_lt hlt), Nat.zero_add]
    rw [starts, List.getD_eq_getElem?_getD, hget, hlengths, ← hlength, List.take_left, hbefore]
    rfl

variable {d : Descriptor} {m : Memory} {i : Nat} {before : List Shard} {s : Shard}
  {after : List Shard}

theorem Owner.contents (h : d.Owner i before s after) :
    d.contents m = contentsOf m before ++ (s.contents m ++ contentsOf m after) := by
  rw [Descriptor.contents, h.shards, contentsOf_append, contentsOf_cons]

theorem Owner.length_before (h : d.Owner i before s after) (hv : d.Valid m) :
    (contentsOf m before).length = total (before.map (·.length)) := by
  have hvalid : ShardsValid m d.type d.access (before ++ s :: after) := h.shards ▸ hv
  exact hvalid.append_left.length_contents

theorem Owner.valid (h : d.Owner i before s after) (hv : d.Valid m) : s.Valid m d.type d.access :=
  hv.each s (by rw [h.shards]; exact List.mem_append_right _ List.mem_cons_self)

theorem Owner.getElem? (h : d.Owner i before s after) : d.shards[before.length]? = some s := by
  rw [h.shards, List.getElem?_append_right (Nat.le_refl _), Nat.sub_self]
  rfl

end Descriptor

/-- A list that has the entries of another one at all indices is this list. -/
theorem eq_of_forall₂_range {α : Type} {xs ys : List α}
    (h : List.Forall₂ (fun i x => ys[i]? = some x) (List.range ys.length) xs) : xs = ys := by
  refine List.ext_getElem? fun i => ?_
  have hlength : xs.length = ys.length := by simpa using h.length_eq.symm
  by_cases hi : i < ys.length
  · have hget := h.get (by simpa using hi) (by omega)
    rw [List.get_eq_getElem, List.getElem_range, List.get_eq_getElem] at hget
    rw [hget]
    exact List.getElem?_eq_getElem (by omega)
  · rw [List.getElem?_eq_none (by omega), List.getElem?_eq_none (by omega)]

namespace Vector

open Descriptor

variable {V : Type} {A : Arithmetic V} {suits : DeviceId → KernelSource → Int → Prop}
  {m : Memory} {d : Descriptor} {i : Nat} {before : List Shard} {s : Shard} {after : List Shard}

/-- The element read at the place of a position is the one of the position. -/
theorem readElement_ensures (hv : d.Valid m) (ho : d.Owner i before s after) :
    (readElement before.length ((i : Int) - total (before.map (·.length)))).Ensures
      (deviceContract A suits)
      (fun x d' m' => d' = d ∧ m.Differs [] [] m' ∧ (d.contents m)[i]? = some x)
      (Broken [] [] d m) d m := by
  have hlower := ho.lower
  have hupper := ho.upper
  simp only [readElement, shard, newArray, Task.ensures_bind, Task.ensures_get, ho.getElem?,
    Task.ensures_pure]
  apply ensures_hostArray
  intro c a hnew ha
  have hdiff := Memory.Differs.newCell a hnew
  obtain ⟨b, buf, -, hsize, hcontents, hspan⟩ := ((ho.valid hv).of_differs hdiff).span
    ((i : Int) - total (before.map (·.length))) 1 rfl (by omega) (by omega) (by omega)
  have hcontents : s.contents m = buf.toList := hcontents
  -- all that changes is the array that the element is read into, which is new
  have hnothing : ∀ a', a'.size = a.size → m.Differs [] [] ((m.setCell c a).setCell c a') :=
    fun a' ha' => .of_newCell a hnew (.setCell (m.setCell_cell_self c a) ha')
  refine ensures_read hspan (m.setCell_cell_self c a) (by omega) (fun e a' ha' hlist => ?_)
    fun e a' ha' => Failed.broken ⟨⟨e, rfl⟩, rfl, hnothing a' ha'⟩
  refine ensures_wait ?_ fun e' => Failed.broken ⟨⟨e', rfl⟩, rfl, hnothing a' ha'⟩
  -- the array has one element, so the element of the buffer is all that it holds
  obtain ⟨x, hx⟩ : ∃ x, buf.toList[i - total (before.map (·.length))]? = some x :=
    ⟨_, List.getElem?_eq_getElem (by rw [Array.length_toList, hsize]; omega)⟩
  have hone :
      ((buf.toList.drop ((i : Int) - total (before.map (·.length))).toNat).take 1) = [x] := by
    rw [show ((i : Int) - total (before.map (·.length))).toNat =
      i - total (before.map (·.length)) by omega, List.take_one, List.head?_drop, hx]
    rfl
  rw [hone, overlay_zero_of_length (by simpa using ha.symm)] at hlist
  refine contents_ensures ⟨a', Memory.setCell_cell_self _ c
    a', by rw [ha', ha]; exact Nat.le_refl 1⟩
    fun values hvalues => ⟨rfl, hnothing a' ha', ?_⟩
  have hvalues : values.toList = [x] := by
    rw [hvalues, HostView.values, Memory.setCell_cell_self]
    simp [hlist, HostView.size, volume]
  have hget : values.getD 0 default = x := by
    rw [Array.getD_eq_getD_getElem?, ← Array.getElem?_toList, hvalues]
    rfl
  rw [hget, ho.contents, List.getElem?_append_right (by rw [ho.length_before hv]; exact hlower),
    ho.length_before hv, hcontents, List.getElem?_append_left
      (by rw [Array.length_toList, hsize]; omega),
    hx]

/-- Writing from the place of a position on, within its shard, is writing over the vector from the
position on. -/
theorem writeElements_ensures {data : HostData} (hv : d.Valid m) (ho : d.Owner i before s after)
    (hshape : data.shape = [data.values.size])
    (hroom : i + data.values.size ≤ total (before.map (·.length)) + s.length) :
    (writeElements before.length ((i : Int) - total (before.map (·.length))) data).Ensures
      (deviceContract A suits)
      (fun _ d' m' => Touched d.buffers [] d m d' m' ∧
        d'.contents m' = overlay i data.values.toList (d.contents m))
      (Broken d.buffers [] d m) d m := by
  obtain ⟨type, shape, data⟩ := data
  obtain rfl : shape = [data.size] := hshape
  have hlower := ho.lower
  have hupper := ho.upper
  have hvalid : ShardsValid m d.type d.access (before ++ s :: after) := ho.shards ▸ hv
  dsimp only at hroom
  obtain ⟨b, buf, hb, hsize, hcontents, hspan⟩ := (ho.valid hv).span
    ((i : Int) - total (before.map (·.length))) data.size rfl (by omega) (by omega) (by omega)
  obtain ⟨hbefore, hafter⟩ := hvalid.middle_notMem hb
  simp only [writeElements, shard, Task.ensures_bind, Task.ensures_get, ho.getElem?,
    Task.ensures_pure]
  have hmem : [b] ⊆ d.buffers :=
    singleton_subset_buffersOf (List.mem_of_getElem? ho.getElem?) hb
  have htouched : ∀ values : Array Scalar, values.size = buf.size → Touched d.buffers [] d m d
      (m.setBuffer b ⟨s.device, d.type, d.access, values⟩) := fun values hvsize =>
    ⟨rfl, (Memory.Differs.setBuffer hspan.present hvsize).mono hmem (List.Subset.refl _)⟩
  refine ensures_write hspan (fun e values hvsize hvlist => ?_)
    fun e values hvsize => Failed.broken ⟨⟨e, rfl⟩, htouched values hvsize⟩
  refine ensures_wait ⟨htouched values hvsize, ?_⟩
    fun e' => Failed.broken ⟨⟨e', rfl⟩, htouched values hvsize⟩
  have hdiff := Memory.Differs.setBuffer hspan.present hvsize
  -- the shards before and after the owner have other buffers
  have hlength : (contentsOf m before).length = total (before.map (·.length)) := ho.length_before hv
  rw [ho.contents, ho.contents, hcontents,
    hvalid.append_left.contents_of_differs hdiff fun b' hb' hB =>
      hbefore (List.mem_singleton.mp hB ▸ hb'),
    hvalid.append_right.tail.contents_of_differs hdiff fun b' hb' hB =>
      hafter (List.mem_singleton.mp hB ▸ hb'),
    Shard.contents_of_buffer hb (m.setBuffer_buffer_self b _), hvlist,
    overlay_middle (by omega) (by simp only [Array.length_toList, hlength, hsize]; exact hroom),
    hlength, show ((i : Int) - total (before.map (·.length))).toNat =
      i - total (before.map (·.length)) by omega]

/-- Positions read one by one give the elements there. -/
theorem readEach_ensures {positions : List Nat} (hv : d.Valid m)
    (hpositions : ∀ i ∈ positions, i < d.size) :
    (Store.readEach d positions).Ensures (deviceContract A suits)
      (fun xs d' m' => d' = d ∧ m.Differs [] [] m' ∧
        List.Forall₂ (fun i x => (d.contents m)[i]? = some x) positions xs)
      (Broken [] [] d m) d m := by
  induction positions generalizing m with
  | nil => exact ⟨rfl, .refl _ _ _, .nil⟩
  | cons i rest ih =>
    obtain ⟨before, s, after, ho⟩ := exists_owner (hpositions i List.mem_cons_self)
    simp only [Store.readEach, Task.ensures_bind, Task.ensures_pure, ho.index, ho.start]
    refine (readElement_ensures hv ho).imp_ok ?_
    intro x d' m' hpost
    obtain ⟨rfl, hdiff, hx⟩ := hpost
    refine (ih (hv.of_differs hdiff) fun j hj => hpositions j (List.mem_cons_of_mem i hj)).imp ?_
      fun _ _ _ h => h.after hdiff
    intro xs d'' m'' hpost
    obtain ⟨rfl, hdiff', hxs⟩ := hpost
    rw [hv.contents_of_differs hdiff fun _ _ => List.not_mem_nil] at hxs
    exact ⟨rfl, hdiff.trans_same hdiff', .cons hx hxs⟩

/-- A vector read one by one gives its elements. -/
theorem readAllEach_ensures (hv : d.Valid m) :
    (Store.readEach d (List.range d.size)).Ensures (deviceContract A suits)
      (fun xs d' m' => d' = d ∧ m.Differs [] [] m' ∧ xs = d.contents m)
      (Broken [] [] d m) d m := by
  refine (readEach_ensures hv fun i hi => List.mem_range.mp hi).imp_ok ?_
  intro xs d' m' hpost
  obtain ⟨hd, hdiff, hxs⟩ := hpost
  rw [← hv.length_contents] at hxs
  exact ⟨hd, hdiff, eq_of_forall₂_range hxs⟩

end Vector

end DistributedVector
