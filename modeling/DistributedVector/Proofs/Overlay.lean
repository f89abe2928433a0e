import Mathlib.Data.List.Forall2

/-!
# Writing over lists

Contents are changed by writing a list over another one from an offset on. A vector is cut into
shards, so the list written is met in parts; `revise` says what becomes of each position, and
splits along an append.

## Main definitions

* `revise`, `placed`, `overlay` — writing over a list
* `gathered` — a range of a list, placed somewhere else

## Main results

* `revise_append` — a list is revised in parts
* `placed_piece`, `gathered_append` — what the part of a range on one shard holds
* `mapM_eq_ok_iff` — a conversion of a list that succeeds, entry by entry
-/

namespace DistributedVector

section Revise

variable {α : Type}

/-- The list with new entries at the positions that `f` has entries for. -/
def revise (f : Nat → Option α) (xs : List α) : List α := xs.mapIdx fun i x => (f i).getD x

/-- The entries of `values` at the positions from `offset` on. -/
def placed (offset : Nat) (values : List α) (i : Nat) : Option α :=
  if offset ≤ i then values[i - offset]? else none

/-- The list with `values` written over its entries from `offset` on. -/
def overlay (offset : Nat) (values xs : List α) : List α := revise (placed offset values) xs

variable {f g : Nat → Option α} {xs ys : List α}

@[simp] theorem length_revise : (revise f xs).length = xs.length := by simp [revise]

@[simp] theorem getElem?_revise (i : Nat) :
    (revise f xs)[i]? = xs[i]?.map fun x => (f i).getD x := by simp [revise]

@[simp] theorem revise_nil : revise f [] = [] := rfl

/-- A list is revised in parts, the later part at later positions. -/
theorem revise_append :
    revise f (xs ++ ys) = revise f xs ++ revise (fun i => f (xs.length + i)) ys := by
  simp [revise, List.mapIdx_append, Nat.add_comm]

theorem revise_congr (h : ∀ i < xs.length, f i = g i) : revise f xs = revise g xs := by
  apply List.ext_getElem?
  intro i
  rw [getElem?_revise, getElem?_revise]
  by_cases hi : i < xs.length
  · rw [h i hi]
  · rw [List.getElem?_eq_none (Nat.le_of_not_lt hi)]
    rfl

theorem revise_eq_self (h : ∀ i < xs.length, f i = none) : revise f xs = xs := by
  apply List.ext_getElem?
  intro i
  rw [getElem?_revise]
  by_cases hi : i < xs.length
  · rw [h i hi]
    cases xs[i]? <;> rfl
  · rw [List.getElem?_eq_none (Nat.le_of_not_lt hi)]
    rfl

/-- Revising twice is revising once, where the later entries win. -/
theorem revise_revise : revise f (revise g xs) = revise (fun i => (f i).or (g i)) xs := by
  apply List.ext_getElem?
  intro i
  simp only [getElem?_revise, Option.map_map]
  refine congrArg (Option.map · xs[i]?) (funext fun x => ?_)
  cases f i <;> rfl

theorem placed_outside {offset : Nat} {values : List α} {i : Nat}
    (h : ¬ (offset ≤ i ∧ i < offset + values.length)) : placed offset values i = none := by
  unfold placed
  split
  · exact List.getElem?_eq_none (by omega)
  · rfl

/-- It does not matter in which order a list is written over at different positions. -/
theorem overlay_comm {offset offset' : Nat} {values values' : List α}
    (h : ∀ i, offset ≤ i → i < offset + values.length →
      ¬ (offset' ≤ i ∧ i < offset' + values'.length)) :
    overlay offset values (overlay offset' values' xs) =
      overlay offset' values' (overlay offset values xs) := by
  unfold overlay
  rw [revise_revise, revise_revise]
  refine revise_congr fun i _ => ?_
  -- at most one of the two has an entry there
  by_cases hi : offset ≤ i ∧ i < offset + values.length
  · rw [placed_outside (h i hi.1 hi.2), Option.or_none, Option.none_or]
  · rw [placed_outside hi, Option.or_none, Option.none_or]

@[simp] theorem length_overlay {offset : Nat} {values : List α} :
    (overlay offset values xs).length = xs.length := length_revise

@[simp] theorem overlay_nil {offset : Nat} : overlay offset [] xs = xs :=
  revise_eq_self fun i _ => by simp [placed]

/-- Writing over a whole list leaves nothing of it. -/
theorem overlay_zero_of_length {values : List α} (h : values.length = xs.length) :
    overlay 0 values xs = values := by
  apply List.ext_getElem?
  intro i
  rw [overlay, getElem?_revise]
  by_cases hi : i < xs.length
  · simp [placed, List.getElem?_eq_getElem hi, List.getElem?_eq_getElem (h ▸ hi)]
  · rw [List.getElem?_eq_none (Nat.le_of_not_lt hi),
      List.getElem?_eq_none (h ▸ Nat.le_of_not_lt hi)]
    rfl

/-- The whole of a list written over the whole of another one leaves the first one. -/
theorem overlay_whole {values : List α} {count : Nat} (hvalues : values.length = count)
    (hxs : xs.length = count) : overlay 0 ((values.drop 0).take count) xs = values := by
  rw [List.drop_zero, List.take_of_length_le (Nat.le_of_eq hvalues),
    overlay_zero_of_length (hvalues.trans hxs.symm)]

/-- Writing over a list within its middle part is writing over that part. -/
theorem overlay_middle {offset : Nat} {values before middle after : List α}
    (hlower : before.length ≤ offset)
    (hupper : offset + values.length ≤ before.length + middle.length) :
    overlay offset values (before ++ (middle ++ after)) =
      before ++ (overlay (offset - before.length) values middle ++ after) := by
  have hbefore : revise (placed offset values) before = before :=
    revise_eq_self fun i hi => by rw [placed, if_neg (by omega)]
  have hafter : revise (fun i => placed offset values (before.length + (middle.length + i))) after =
      after :=
    revise_eq_self fun i _ => by
      rw [placed, if_pos (by omega), List.getElem?_eq_none (by omega)]
  rw [overlay, revise_append, revise_append, hbefore, hafter, overlay]
  refine congrArg (fun ys => before ++ (ys ++ after)) (revise_congr fun i hi => ?_)
  unfold placed
  by_cases h : offset ≤ before.length + i
  · rw [if_pos h, if_pos (by omega)]
    congr 1
    omega
  · rw [if_neg h, if_neg (by omega)]

theorem toList_part (a : Array α) (start count : Nat) :
    (a.extract start (start + count)).toList = (a.toList.drop start).take count := by
  simp [List.extract_eq_take_drop]

end Revise

section Ranges

variable {α : Type} {offset count start n : Nat} {values : List α}

/-- On the positions of one shard, a range is what its piece there holds. -/
theorem placed_piece (hvalues : values.length = count) {first last : Nat}
    (hfirst : first = max offset start) (hlast : last = min (offset + count) (start + n))
    (h : first < last) {i : Nat} (hi : i < n) :
    placed (first - start) ((values.drop (first - offset)).take (last - first)) i =
      placed offset values (start + i) := by
  unfold placed
  by_cases hin : first ≤ start + i ∧ start + i < last
  · rw [if_pos (by omega), if_pos (by omega), List.getElem?_take_of_lt (by omega),
      List.getElem?_drop]
    congr 1
    omega
  · by_cases hbelow : start + i < first
    · rw [if_neg (by omega), if_neg (by omega)]
    · rw [if_pos (by omega), if_pos (by omega), List.getElem?_eq_none (by simp; omega),
        List.getElem?_eq_none (by omega)]

/-- On the positions of a shard that a range does not meet, the range holds nothing. -/
theorem placed_eq_none (hvalues : values.length = count)
    (h : min (offset + count) (start + n) ≤ max offset start) {i : Nat} (hi : i < n) :
    placed offset values (start + i) = none :=
  placed_outside (by omega)

/-- The elements of a range that lies from `base` on in an array, as far as `values`, the elements
from `start` on, have them. -/
def gathered (base offset count start : Nat) (values : List α) (i : Nat) : Option α :=
  if base ≤ i ∧ i < base + count ∧ start ≤ offset + (i - base) then
    values[offset + (i - base) - start]?
  else none

/-- Elements are gathered from a piece and from what lies behind it. -/
theorem gathered_append (base : Nat) (behind : List α) (hvalues : values.length = n)
    {first last : Nat} (hfirst : first = max offset start)
    (hlast : last = min (offset + count) (start + n)) (i : Nat) :
    gathered base offset count start (values ++ behind) i =
      (gathered base offset count (start + n) behind i).or
        (if first < last then placed (base + (first - offset))
          ((values.drop (first - start)).take (last - first)) i else none) := by
  unfold gathered placed
  by_cases hin : base ≤ i ∧ i < base + count
  -- the element for the index lies before the piece, behind it or in it
  · by_cases hbefore : offset + (i - base) < start
    · rw [if_neg (by omega), if_neg (by omega)]
      split
      · rw [if_neg (by omega)]; rfl
      · rfl
    by_cases hbehind : start + n ≤ offset + (i - base)
    · have hbeyond : (if first < last then if base + (first - offset) ≤ i then
          ((values.drop (first - start)).take (last - first))[i - (base + (first - offset))]?
          else none else none) = none := by
        split
        · split
          · exact List.getElem?_eq_none (by simp; omega)
          · rfl
        · rfl
      rw [if_pos (by omega), if_pos (by omega), List.getElem?_append_right (by omega), hbeyond,
        Option.or_none]
      congr 1
      omega
    · rw [if_pos (by omega), if_neg (by omega), if_pos (by omega), if_pos (by omega),
        List.getElem?_append_left (by omega), List.getElem?_take_of_lt (by omega),
        List.getElem?_drop]
      simp only [Option.none_or]
      congr 1
      omega
  · rw [if_neg (by omega), if_neg (by omega)]
    simp only [Option.none_or]
    split
    · split
      · rw [List.getElem?_eq_none (by simp; omega)]
      · rfl
    · rfl

theorem gathered_zero {base : Nat} :
    gathered base offset count 0 values = placed base ((values.drop offset).take count) := by
  funext i
  unfold gathered placed
  by_cases hbase : base ≤ i
  · by_cases hin : i - base < count
    · rw [if_pos (by omega), if_pos hbase, List.getElem?_take_of_lt hin, List.getElem?_drop]
      rfl
    · rw [if_neg (by omega), if_pos hbase, List.getElem?_eq_none (by simp; omega)]
  · rw [if_neg (by omega), if_neg hbase]

end Ranges

section Conversion

variable {α β ε : Type} {f : α → Except ε β}

theorem bind_eq_ok_iff {x : Except ε α} {b : β} :
    x >>= f = .ok b ↔ ∃ a, x = .ok a ∧ f a = .ok b := by
  cases x with
  | error e => simp [bind, Except.bind]
  | ok a => simp [bind, Except.bind]

@[simp] theorem mapError_ok {ε' : Type} {g : ε → ε'} {a : α} :
    (Except.ok a : Except ε α).mapError g = .ok a := rfl

@[simp] theorem mapError_error {ε' : Type} {g : ε → ε'} {e : ε} :
    (Except.error e : Except ε α).mapError g = .error (g e) := rfl

theorem mapError_eq_ok_iff {ε' : Type} {g : ε → ε'} {x : Except ε α} {a : α} :
    x.mapError g = .ok a ↔ x = .ok a := by
  cases x <;> simp

theorem map_eq_ok_iff {g : α → β} {x : Except ε α} {b : β} :
    x.map g = .ok b ↔ ∃ a, x = .ok a ∧ g a = b := by
  cases x <;> simp [Except.map]

theorem map_eq_error_iff {g : α → β} {x : Except ε α} {e : ε} :
    x.map g = .error e ↔ x = .error e := by
  cases x <;> simp [Except.map]

theorem toOption_eq_some_iff {x : Except ε α} {a : α} : x.toOption = some a ↔ x = .ok a := by
  cases x <;> simp [Except.toOption]

/-- A conversion of a list succeeds if each entry can be converted. -/
theorem mapM_eq_ok_iff {xs : List α} {ys : List β} :
    xs.mapM f = .ok ys ↔ List.Forall₂ (fun x y => f x = .ok y) xs ys := by
  induction xs generalizing ys with
  | nil =>
    rw [List.mapM_nil, List.forall₂_nil_left_iff]
    constructor
    · rintro h
      cases h
      rfl
    · rintro rfl
      rfl
  | cons x xs ih =>
    rw [List.mapM_cons, List.forall₂_cons_left_iff, bind_eq_ok_iff]
    constructor
    · rintro ⟨y, hy, h⟩
      obtain ⟨zs, hzs, h⟩ := bind_eq_ok_iff.mp h
      cases h
      exact ⟨y, zs, hy, ih.mp hzs, rfl⟩
    · rintro ⟨y, zs, hy, hzs, rfl⟩
      exact ⟨y, hy, bind_eq_ok_iff.mpr ⟨zs, ih.mpr hzs, rfl⟩⟩

theorem mapM_option_congr {g g' : α → Option β} {xs : List α} (h : ∀ x ∈ xs, g x = g' x) :
    xs.mapM g = xs.mapM g' := by
  induction xs with
  | nil => rfl
  | cons x xs ih =>
    rw [List.forall_mem_cons] at h
    rw [List.mapM_cons, List.mapM_cons, h.1, ih h.2]

/-- Looking up the entries of a list succeeds if each can be looked up. -/
theorem mapM_eq_some_iff {g : α → Option β} {xs : List α} {ys : List β} :
    xs.mapM g = some ys ↔ List.Forall₂ (fun x y => g x = some y) xs ys := by
  induction xs generalizing ys with
  | nil => simp [List.forall₂_nil_left_iff, eq_comm]
  | cons x xs ih =>
    simp only [List.mapM_cons, List.forall₂_cons_left_iff, Option.bind_eq_bind, Option.pure_def,
      Option.bind_eq_some_iff, Option.some.injEq, ih]
    constructor
    · rintro ⟨y, hy, zs, hzs, rfl⟩
      exact ⟨y, zs, hy, hzs, rfl⟩
    · rintro ⟨y, zs, hy, hzs, rfl⟩
      exact ⟨y, hy, zs, hzs, rfl⟩

/-- Entries that belong to each other and have one value each have one list of values. -/
theorem exists_mapM_of_forall₂ {γ : Type} {r : α → γ → Prop} {g : α → Option β} {g' : γ → Option β}
    {xs : List α} {ys : List γ} (h : List.Forall₂ r xs ys)
    (hr : ∀ x ∈ xs, ∀ y, r x y → ∃ v, g x = some v ∧ g' y = some v) :
    ∃ vs, xs.mapM g = some vs ∧ ys.mapM g' = some vs := by
  induction h with
  | nil => exact ⟨[], rfl, rfl⟩
  | @cons x y xs ys hxy _ ih =>
    rw [List.forall_mem_cons] at hr
    obtain ⟨v, hx, hy⟩ := hr.1 y hxy
    obtain ⟨vs, hxs, hys⟩ := ih hr.2
    exact ⟨v :: vs, by simp [hx, hxs], by simp [hy, hys]⟩

theorem exists_mapM {g : α → Option β} {xs : List α} (h : ∀ x ∈ xs, ∃ v, g x = some v) :
    ∃ vs, xs.mapM g = some vs := by
  have hsame : List.Forall₂ Eq xs xs := List.forall₂_eq_eq_eq.symm ▸ rfl
  have hboth : ∀ x ∈ xs, ∀ y, x = y → ∃ v, g x = some v ∧ g y = some v := fun x hx y hxy => by
    obtain ⟨v, hv⟩ := h x hx
    exact ⟨v, hv, hxy ▸ hv⟩
  obtain ⟨vs, hvs, -⟩ := exists_mapM_of_forall₂ hsame hboth
  exact ⟨vs, hvs⟩

theorem exists_of_mapM_eq_error {xs : List α} {e : ε} (h : xs.mapM f = .error e) :
    ∃ x ∈ xs, f x = .error e := by
  induction xs with
  | nil => cases h
  | cons x xs ih =>
    rw [List.mapM_cons] at h
    cases hx : f x with
    | error e' =>
      rw [hx] at h
      cases h
      exact ⟨x, List.mem_cons_self, hx⟩
    | ok y =>
      cases hxs : xs.mapM f with
      | error e' =>
        rw [hx, hxs] at h
        cases h
        obtain ⟨x', hx', he⟩ := ih hxs
        exact ⟨x', List.mem_cons_of_mem x hx', he⟩
      | ok ys =>
        rw [hx, hxs] at h
        cases h

theorem getElem?_of_forall₂ {r : α → β → Prop} {xs : List α} {ys : List β}
    (h : List.Forall₂ r xs ys) {i : Nat} {x : α} (hx : xs[i]? = some x) :
    ∃ y, ys[i]? = some y ∧ r x y := by
  obtain ⟨hi, rfl⟩ := List.getElem?_eq_some_iff.mp hx
  have hi' : i < ys.length := h.length_eq ▸ hi
  exact ⟨ys[i], List.getElem?_eq_getElem hi', h.get hi hi'⟩

theorem forall₂_trans {γ : Type} {r : α → β → Prop} {q : β → γ → Prop} {p : α → γ → Prop}
    {xs : List α} {ys : List β} {zs : List γ} (hxy : List.Forall₂ r xs ys)
    (hyz : List.Forall₂ q ys zs) (h : ∀ x y z, y ∈ ys → r x y → q y z → p x z) :
    List.Forall₂ p xs zs := by
  induction hxy generalizing zs with
  | nil =>
    cases hyz
    exact .nil
  | cons hr _ ih =>
    cases hyz with
    | cons hq hrest =>
      exact .cons (h _ _ _ List.mem_cons_self hr hq)
        (ih hrest fun x y z hy => h x y z (List.mem_cons_of_mem _ hy))

theorem length_of_mapM {xs : List α} {ys : List β} (h : xs.mapM f = .ok ys) :
    ys.length = xs.length :=
  (mapM_eq_ok_iff.mp h).length_eq.symm

end Conversion

end DistributedVector
