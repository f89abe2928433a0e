import DistributedVector.Proofs.Overlay
import DistributedVector.Proofs.Partitions
import Mathlib.Algebra.Order.BigOperators.Group.List

/-!
# Shares in proportion to weights

Boundaries for weights are found from left to right. The proportional position of the weights so far
is rounded up to the alignment, held at the boundary before it at least and at the number of
elements at most. So boundaries are an aligned partition whatever the positions are, in whichever
arithmetic they are computed. In exact arithmetic, for weights that are not negative, positions do
not decrease. Then nothing has to be held at the boundary before it, and each boundary is the
position rounded up.

## Main definitions

* `Weighing` — an arithmetic for weights and their sums
* `Weighing.partition` — a partition in proportion to weights, in any arithmetic
* `Weighing.double`, `Weighing.exact` — with doubles and with rational numbers
* `Proportional` — boundaries next to their exact positions

## Main results

* `Weighing.double_partition` — partitions with doubles
* `Weighing.partition_aligned` — boundaries are an aligned partition in any arithmetic
* `boundariesFrom_eq_map` — where positions do not decrease, boundaries are positions rounded up
* `partitionByWeights_aligned` — all together
-/

namespace DistributedVector

variable {n m bound : Int}

/-! ## Boundaries for given positions -/

/-- The boundary for a position: rounded up, at least the boundary before it and at most the number
of elements. -/
def nextBoundary (n m bound position : Int) : Int := min n (max bound (alignUp position m))

theorem nextBoundary_le (position : Int) : nextBoundary n m bound position ≤ n :=
  Int.min_le_left _ _

theorem le_nextBoundary (hbound : bound ≤ n) (position : Int) :
    bound ≤ nextBoundary n m bound position := by
  rw [nextBoundary]
  omega

/-- Alignment is kept, since each of the three numbers is aligned or the number of elements. -/
theorem nextBoundary_aligned (hm : 1 ≤ m) (hbound : bound = n ∨ m ∣ bound) (position : Int) :
    nextBoundary n m bound position = n ∨ m ∣ nextBoundary n m bound position := by
  have hrounded : m ∣ alignUp position m := (alignUp_isLeast hm).1.1
  rw [nextBoundary]
  rcases min_choice n (max bound (alignUp position m)) with hmin | hmin
  · exact .inl hmin
  · rw [hmin]
    rcases max_choice bound (alignUp position m) with hmax | hmax
    · rwa [hmax]
    · rw [hmax]
      exact .inr hrounded

/-- Boundaries are found if there is a position, and the boundaries behind it are found. -/
theorem boundariesFrom_cons_eq_ok {share : Except PartitionFault Int}
    {rest : List (Except PartitionFault Int)} {interior : List Int} (hm : m ≠ 0) :
    boundariesFrom n m bound (share :: rest) = .ok interior ↔
    ∃ position behind, share = .ok position ∧
      boundariesFrom n m (nextBoundary n m bound position) rest = .ok behind ∧
      nextBoundary n m bound position :: behind = interior := by
  cases share with
  | error fault => simp [boundariesFrom, bind, Except.bind]
  | ok position =>
    have halign : alignUp? position m = .ok (alignUp position m) := if_neg hm
    simp only [boundariesFrom, bind_eq_ok_iff, halign, Except.ok.injEq, exists_eq_left', pure,
      Except.pure, exists_and_left, nextBoundary]

/-- Boundaries that have been found: there is one for each position, they do not decrease, lie
between the boundary that they follow and the number of elements, and are aligned. -/
structure Follows (n m bound : Int) (positions : Nat) (interior : List Int) : Prop where
  length : interior.length = positions
  monotone : (bound :: interior).Pairwise (· ≤ ·)
  within : ∀ b ∈ interior, b ≤ n
  aligned : ∀ b ∈ interior, b = n ∨ m ∣ b

/-- Whatever the positions are, boundaries that have been found follow the first one in order,
aligned. -/
theorem boundariesFrom_follows (hm : 1 ≤ m) {shares : List (Except PartitionFault Int)} :
    ∀ {bound : Int} {interior : List Int}, bound ≤ n → (bound = n ∨ m ∣ bound) →
    boundariesFrom n m bound shares = .ok interior → Follows n m bound shares.length interior := by
  -- the boundary that is passed on is at most the number of elements, and aligned
  induction shares with
  | nil =>
    intro bound interior _ _ h
    cases h
    exact ⟨rfl, List.pairwise_singleton _ _, by simp, by simp⟩
  | cons share rest ih =>
    intro bound interior hbound haligned h
    obtain ⟨position, behind, -, hbehind, rfl⟩ := (boundariesFrom_cons_eq_ok (by omega)).mp h
    have hle := le_nextBoundary (m := m) hbound position
    have hnext := nextBoundary_aligned hm haligned position
    have hrest := ih (nextBoundary_le position) hnext hbehind
    -- what follows the next boundary follows the one before it
    have hall : ∀ b ∈ nextBoundary n m bound position :: behind, bound ≤ b := by
      intro b hb
      rcases List.mem_cons.mp hb with rfl | hb
      · exact hle
      · exact Int.le_trans hle (List.rel_of_pairwise_cons hrest.monotone hb)
    exact {
      length := by rw [List.length_cons, hrest.length, List.length_cons]
      monotone := List.pairwise_cons.mpr ⟨hall, hrest.monotone⟩
      within := List.forall_mem_cons.mpr ⟨nextBoundary_le position, hrest.within⟩
      aligned := List.forall_mem_cons.mpr ⟨hnext, hrest.aligned⟩ }

/-- All positions are there if boundaries have been found. -/
theorem exists_of_boundariesFrom (hm : m ≠ 0) {shares : List (Except PartitionFault Int)} :
    ∀ {bound : Int} {interior : List Int}, boundariesFrom n m bound shares = .ok interior →
    ∀ share ∈ shares, ∃ position, share = .ok position := by
  induction shares with
  | nil => simp
  | cons share rest ih =>
    intro bound interior h
    obtain ⟨position, behind, hshare, hbehind, -⟩ := (boundariesFrom_cons_eq_ok hm).mp h
    exact List.forall_mem_cons.mpr ⟨⟨position, hshare⟩, ih hbehind⟩

/-- Between zero and the number of elements, boundaries that follow zero make an aligned
partition. -/
theorem Follows.alignedPartition {positions : Nat} {interior : List Int} (hn : 0 ≤ n)
    (h : Follows n m 0 positions interior) :
    AlignedPartition n m (positions + 1) (0 :: interior ++ [n]) where
  length := by simp [h.length]
  first := rfl
  last := List.getLast?_concat
  monotone := by
    have hwithin : ∀ b ∈ 0 :: interior, b ≤ n := List.forall_mem_cons.mpr ⟨hn, h.within⟩
    exact List.pairwise_append.mpr ⟨h.monotone, List.pairwise_singleton _ _, by simpa using hwithin⟩
  interior := by
    intro i b hpos hlt hb
    obtain ⟨i, rfl⟩ := Nat.exists_eq_add_one.mpr hpos
    rw [List.cons_append, List.getElem?_cons_succ,
      List.getElem?_append_left (by rw [h.length]; omega)] at hb
    exact h.aligned b (List.mem_of_getElem? hb)

/-- Where positions do not decrease, rounding up is all there is to it: the boundary before is never
above the next multiple. -/
theorem boundariesFrom_eq_map (hm : 1 ≤ m) {positions : List Int} :
    ∀ {start : Int}, (start :: positions).Pairwise (· ≤ ·) →
    boundariesFrom n m (min n (alignUp start m)) (positions.map .ok) =
      .ok (positions.map fun position => min n (alignUp position m)) := by
  induction positions with
  | nil => exact fun _ => rfl
  | cons position rest ih =>
    intro start hsorted
    have hle : alignUp start m ≤ alignUp position m :=
      alignUp_mono hm (List.rel_of_pairwise_cons hsorted List.mem_cons_self)
    -- so the boundary before does not hold anything back
    have hnext : nextBoundary n m (min n (alignUp start m)) position =
        min n (alignUp position m) := by
      rw [nextBoundary]
      omega
    rw [List.map_cons, boundariesFrom_cons_eq_ok (by omega)]
    refine ⟨position, _, rfl, ?_, congrArg (· :: _) hnext⟩
    rw [hnext]
    exact ih hsorted.of_cons

/-! ## Arithmetics for weights -/

/-- An arithmetic for weights and their sums, of which it may refuse some. -/
structure Weighing (ω κ : Type) where
  /-- the sum of all weights -/
  total : List ω → Except PartitionFault κ
  /-- whether a sum of all weights is refused for not being positive -/
  weightless : κ → Bool
  /-- the sum of no weights -/
  zero : κ
  /-- a sum with one more weight -/
  add : κ → ω → Except PartitionFault κ
  /-- the position of a sum among a number of elements, given the sum of all weights -/
  position : Int → κ → κ → Except PartitionFault Int

namespace Weighing

variable {ω κ : Type} (A : Weighing ω κ)

/-- The sums of the first weights, from `sum` on: one for each weight, up to one that is refused. -/
def sums (sum : κ) : List ω → List (Except PartitionFault κ)
  | [] => []
  | w :: rest =>
    match A.add sum w with
    | .ok next => .ok next :: sums next rest
    | .error fault => [.error fault]

/-- The positions of the boundaries between the first and the last. -/
def positions (n : Int) (total : κ) (weights : List ω) : List (Except PartitionFault Int) :=
  (A.sums A.zero weights.dropLast).map fun sum => do A.position n total (← sum)

/-- Boundaries in proportion to weights, those between the first and the last aligned. -/
def partition (n alignment : Int) (weights : List ω) : Except PartitionFault (List Int) := do
  let total ← A.total weights
  if A.weightless total then .error .noWeight
  else return 0 :: (← boundariesFrom n alignment 0 (A.positions n total weights)) ++ [n]

/-- Doubles. Weights that are integers are added up exactly for the sum of all weights. -/
def double : Weighing Scalar Float where
  total weights := tooLarge (totalWeight (.int 0) weights)
  weightless total := total ≤ 0
  zero := 0
  add sum w := tooLarge (w.toDouble.map (sum + ·))
  position := weightedShare

/-- A rational number without its fraction. -/
def withoutFraction (x : ℚ) : Int := if 0 ≤ x then ⌊x⌋ else ⌈x⌉

/-- Rational numbers. -/
def exact : Weighing ℚ ℚ where
  total weights := .ok weights.sum
  weightless total := total ≤ 0
  zero := 0
  add sum w := .ok (sum + w)
  position n total sum := .ok (withoutFraction (n * sum / total))

theorem double_add (sum : Float) (w : Scalar) :
    double.add sum w = tooLarge (w.toDouble.map (sum + ·)) := rfl

theorem double_sums (sum : Float) (weights : List Scalar) :
    double.sums sum weights = (runningSums sum weights).map tooLarge := by
  induction weights generalizing sum with
  | nil => rfl
  | cons w rest ih =>
    rw [sums, double_add, runningSums]
    cases w.toDouble with
    | ok x => exact congrArg (_ :: ·) (ih (sum + x))
    | error fault => rfl

/-- Partitions with doubles are those that sessions use. -/
theorem double_partition (n alignment : Int) (weights : List Scalar) :
    double.partition n alignment weights = partitionByWeights n weights alignment := by
  have hpositions : ∀ total, double.positions n total weights =
      (runningSums 0 weights.dropLast).map (fun sum => do
        weightedShare n total (← tooLarge sum)) := by
    intro total
    rw [positions, double_sums, List.map_map]
    rfl
  have htotal : double.total weights = tooLarge (totalWeight (.int 0) weights) := rfl
  rw [partition, partitionByWeights, htotal]
  cases tooLarge (totalWeight (.int 0) weights) with
  | error fault => rfl
  | ok total =>
    simp only [bind, Except.bind, hpositions]
    by_cases hlight : total ≤ 0
    · simp [double, hlight]
      rfl
    · simp [double, hlight]

theorem partition_eq_ok_iff {weights : List ω} {part : List Int} :
    A.partition n m weights = .ok part ↔ ∃ total interior, A.total weights = .ok total ∧
      A.weightless total = false ∧ boundariesFrom n m 0
        (A.positions n total weights) = .ok interior ∧
      0 :: interior ++ [n] = part := by
  rw [partition, bind_eq_ok_iff]
  apply exists_congr
  intro total
  cases hlight : A.weightless total with
  | true => simp
  | false => simp [bind_eq_ok_iff, pure, Except.pure]

/-- If no sum is refused there is one for each weight. -/
theorem length_sums {sum : κ} {weights : List ω} (h : ∀ x ∈ A.sums sum weights, ∃ y, x = .ok y) :
    (A.sums sum weights).length = weights.length := by
  induction weights generalizing sum with
  | nil => rfl
  | cons w rest ih =>
    rw [sums] at h ⊢
    cases hadd : A.add sum w with
    | ok next =>
      simp only [hadd, List.forall_mem_cons] at h
      simp only [List.length_cons, ih h.2]
    | error fault => simp [hadd] at h

theorem length_positions {total : κ} {weights : List ω}
    (h : ∀ share ∈ A.positions n total weights, ∃ position, share = .ok position) :
    (A.positions n total weights).length = weights.length - 1 := by
  rw [positions, List.length_map, length_sums, List.length_dropLast]
  intro sum hsum
  -- a refused sum would have no position
  obtain ⟨position, hposition⟩ := h _ (List.mem_map_of_mem hsum)
  obtain ⟨y, hy, -⟩ := bind_eq_ok_iff.mp hposition
  exact ⟨y, hy⟩

/-- Boundaries are an aligned partition in any arithmetic. -/
theorem partition_aligned {weights : List ω} {part : List Int} (hn : 0 ≤ n) (hm : 1 ≤ m)
    (hweights : weights ≠ []) (h : A.partition n m weights = .ok part) :
    AlignedPartition n m weights.length part := by
  obtain ⟨total, interior, -, -, hinterior, rfl⟩ := A.partition_eq_ok_iff.mp h
  have hlength := A.length_positions (exists_of_boundariesFrom (by omega) hinterior)
  have hfollows := boundariesFrom_follows hm hn (.inr (Int.dvd_zero m)) hinterior
  -- there is a boundary for each weight but the last, and the number of elements behind them
  have hdevices : weights.length - 1 + 1 = weights.length :=
    Nat.sub_add_cancel (List.length_pos_iff.mpr hweights)
  rw [hlength] at hfollows
  have haligned := hfollows.alignedPartition hn
  rwa [hdevices] at haligned

end Weighing

/-! ## Exact arithmetic -/

/-- The exact position behind the first `i` weights. -/
def exactPosition (n : Int) (weights : List ℚ) (i : Nat) : ℚ :=
  n * (weights.take i).sum / weights.sum

/-- The boundaries between the first and the last are the least multiples that are not below the
exact positions without their fractions, or the number of elements. So they are less than the
alignment above the positions, and less than one element below unless they are at the end. -/
def Proportional (n m : Int) (weights : List ℚ) (part : List Int) : Prop :=
  ∀ i, 0 < i → i < weights.length → ∃ boundary least : Int, part[i]? = some boundary ∧
    IsLeast {c : Int | m ∣ c ∧ ⌊exactPosition n weights i⌋ ≤ c} least ∧ boundary = min n least ∧
    (boundary : ℚ) < exactPosition n weights i + m ∧
    (boundary < n → exactPosition n weights i - 1 < boundary)

section Exact

variable {weights : List ℚ}

theorem sum_take_nonneg (hnonneg : ∀ w ∈ weights, 0 ≤ w) (i : Nat) : 0 ≤ (weights.take i).sum :=
  List.sum_nonneg fun w hw => hnonneg w (List.mem_of_mem_take hw)

theorem sum_take_mono (hnonneg : ∀ w ∈ weights, 0 ≤ w) :
    Monotone fun i => (weights.take i).sum := by
  apply monotone_nat_of_le_succ
  intro i
  by_cases hi : i < weights.length
  · rw [List.take_succ_eq_append_getElem hi, List.sum_append, List.sum_singleton]
    exact le_add_of_nonneg_right (hnonneg _ (List.getElem_mem hi))
  · rw [List.take_of_length_le (by omega), List.take_of_length_le (by omega)]

theorem exactPosition_nonneg (hn : 0 ≤ n) (hnonneg : ∀ w ∈ weights, 0 ≤ w) (i : Nat) :
    0 ≤ exactPosition n weights i := by
  have hcount : (0 : ℚ) ≤ n := by exact_mod_cast hn
  exact div_nonneg (mul_nonneg hcount (sum_take_nonneg hnonneg i)) (List.sum_nonneg hnonneg)

theorem exactPosition_mono (hn : 0 ≤ n) (hnonneg : ∀ w ∈ weights, 0 ≤ w) :
    Monotone (exactPosition n weights) := by
  intro i j hij
  have hcount : (0 : ℚ) ≤ n := by exact_mod_cast hn
  exact div_le_div_of_nonneg_right (mul_le_mul_of_nonneg_left (sum_take_mono hnonneg hij) hcount)
    (List.sum_nonneg hnonneg)

theorem exact_sums (sum : ℚ) (weights : List ℚ) : Weighing.exact.sums sum weights =
    (List.range weights.length).map fun i => .ok (sum + (weights.take (i + 1)).sum) := by
  induction weights generalizing sum with
  | nil => rfl
  | cons w rest ih =>
    have hadd : Weighing.exact.add sum w = .ok (sum + w) := rfl
    rw [Weighing.sums, hadd, List.length_cons, List.range_succ_eq_map, List.map_cons, List.map_map]
    simp [ih, Function.comp_def, add_assoc]

/-- The exact positions without their fractions, for the boundaries between the first and the
last. -/
def exactFloors (n : Int) (weights : List ℚ) : List Int :=
  (List.range (weights.length - 1)).map fun i => ⌊exactPosition n weights (i + 1)⌋

theorem exact_positions (hn : 0 ≤ n) (hnonneg : ∀ w ∈ weights, 0 ≤ w) :
    Weighing.exact.positions n weights.sum weights = (exactFloors n weights).map .ok := by
  rw [Weighing.positions, exact_sums, exactFloors, List.length_dropLast, List.map_map, List.map_map]
  apply List.map_congr_left
  intro i hi
  -- the last weight is not among the first ones
  have htake : weights.dropLast.take (i + 1) = weights.take (i + 1) := by
    have hlt := List.mem_range.mp hi
    rw [List.dropLast_eq_take, List.take_take, Nat.min_eq_left (by omega)]
  have hposition : (n : ℚ) * (0 + (weights.take (i + 1)).sum) / weights.sum =
      exactPosition n weights (i + 1) := by rw [zero_add, exactPosition]
  have hzero : Weighing.exact.zero = 0 := rfl
  show Except.ok (Weighing.withoutFraction _) = Except.ok _
  rw [hzero, htake, hposition, Weighing.withoutFraction, if_pos (exactPosition_nonneg hn hnonneg _)]

theorem sorted_exactFloors (hn : 0 ≤ n) (hnonneg : ∀ w ∈ weights, 0 ≤ w) :
    (0 :: exactFloors n weights).Pairwise (· ≤ ·) := by
  apply List.pairwise_cons.mpr
  constructor
  · intro b hb
    obtain ⟨i, -, rfl⟩ := List.mem_map.mp hb
    exact Int.floor_nonneg.mpr (exactPosition_nonneg hn hnonneg _)
  · apply List.pairwise_map.mpr
    apply List.pairwise_lt_range.imp
    intro i j hij
    exact Int.floor_mono (exactPosition_mono hn hnonneg (by omega))

/-- The boundaries of exact arithmetic. The boundary before one is never what decides. -/
theorem exact_partition_eq (hn : 0 ≤ n) (hm : 1 ≤ m) (hnonneg : ∀ w ∈ weights, 0 ≤ w)
    (hpos : 0 < weights.sum) : Weighing.exact.partition n m weights =
      .ok (0 :: (exactFloors n weights).map
        (fun position => min n (alignUp position m)) ++ [n]) := by
  -- zero, where boundaries start, is a position rounded up as well
  have hzero : min n (alignUp 0 m) = 0 := by
    rw [alignUp, Int.zero_fmod, if_pos rfl]
    exact Int.min_eq_right hn
  have hboundaries := boundariesFrom_eq_map (n := n) hm (sorted_exactFloors hn hnonneg)
  rw [hzero, ← exact_positions hn hnonneg] at hboundaries
  exact Weighing.exact.partition_eq_ok_iff.mpr
    ⟨weights.sum, _, rfl, decide_eq_false (not_le_of_gt hpos), hboundaries, rfl⟩

/-- A position rounded up is less than the alignment above it and less than one element below it. -/
theorem proportional_exactFloors (hm : 1 ≤ m) :
    Proportional n m weights
      (0 :: (exactFloors n weights).map (fun position => min n (alignUp position m)) ++ [n]) := by
  intro i hpos hlt
  obtain ⟨i, rfl⟩ := Nat.exists_eq_add_one.mpr hpos
  have hlower := Int.floor_le (exactPosition n weights (i + 1))
  have hupper := Int.lt_floor_add_one (exactPosition n weights (i + 1))
  obtain ⟨-, -, hle, hrounded⟩ := alignUp_spec (n := ⌊exactPosition n weights (i + 1)⌋) hm
  refine ⟨min n (alignUp ⌊exactPosition n weights (i + 1)⌋ m), _, ?_,
    alignUp_isLeast hm, rfl, ?_, ?_⟩
  · -- the boundary stands behind zero and before the number of elements
    rw [List.cons_append, List.getElem?_cons_succ,
      List.getElem?_append_left (by simp [exactFloors]; omega),
      List.getElem?_map, exactFloors, List.getElem?_map, List.getElem?_range (by omega)]
    rfl
  · have hcut : ((min n (alignUp ⌊exactPosition n weights (i + 1)⌋ m) : Int) : ℚ) <
        ⌊exactPosition n weights (i + 1)⌋ + m := by
      exact_mod_cast lt_of_le_of_lt (min_le_right _ _) hrounded
    linarith
  · intro hbelow
    have huncut : ((⌊exactPosition n weights (i + 1)⌋ : Int) : ℚ) ≤
        (min n (alignUp ⌊exactPosition n weights (i + 1)⌋ m) : Int) := by
      exact_mod_cast (by omega : ⌊exactPosition n weights (i + 1)⌋ ≤ min n (alignUp _ m))
    linarith

/-- What a positive sum of weights that are not negative is for: boundaries are found, in
proportion. -/
theorem exact_partition_proportional (hn : 0 ≤ n) (hm : 1 ≤ m) (hnonneg : ∀ w ∈ weights, 0 ≤ w)
    (hpos : 0 < weights.sum) :
    ∃ part, Weighing.exact.partition n m weights = .ok part ∧ Proportional n m weights part :=
  ⟨_, exact_partition_eq hn hm hnonneg hpos, proportional_exactFloors hm⟩

end Exact

/-- Boundaries for weights. Whatever the weights are, negative ones included, and in whichever
arithmetic sums and positions are computed, doubles being one of them, boundaries that are found are
a partition aligned to the alignment, and are not refused. With rational numbers and weights that
are not negative, boundaries are found if some weight is positive, and each is its exact position
rounded up. -/
theorem partitionByWeights_aligned (hn : 0 ≤ n) (hm : 1 ≤ m) :
    (∀ (ω κ : Type) (A : Weighing ω κ) (weights : List ω) (part : List Int), weights ≠ [] →
      A.partition n m weights = .ok part →
      AlignedPartition n m weights.length part ∧ validatePartition part n weights.length = .ok ()) ∧
    (∀ (weights : List Scalar) (part : List Int), weights ≠ [] →
      partitionByWeights n weights m = .ok part →
      AlignedPartition n m weights.length part ∧ validatePartition part n weights.length = .ok ()) ∧
    Weighing.double.partition n m = (partitionByWeights n · m) ∧
    ∀ weights : List ℚ, (∀ w ∈ weights, 0 ≤ w) → (∃ w ∈ weights, 0 < w) →
      ∃ part, Weighing.exact.partition n m weights = .ok part ∧
        AlignedPartition n m weights.length part ∧ Proportional n m weights part := by
  have haligned : ∀ (ω κ : Type) (A : Weighing ω κ) (weights : List ω) (part : List Int),
    weights ≠ [] →
      A.partition n m weights = .ok part →
      AlignedPartition n m weights.length part ∧
      validatePartition part n weights.length = .ok () := by
    intro ω κ A weights part hweights h
    have hpart := A.partition_aligned hn hm hweights h
    exact ⟨hpart, validatePartition_iff.mpr hpart.toIsPartition⟩
  refine ⟨haligned, ?_, funext (Weighing.double_partition n m), ?_⟩
  · intro weights part hweights h
    rw [← Weighing.double_partition] at h
    exact haligned _ _ _ weights part hweights h
  · intro weights hnonneg hsome
    obtain ⟨w, hw, hpos⟩ := hsome
    -- no weight takes anything away from a positive one
    have hsum : 0 < weights.sum := lt_of_lt_of_le hpos (List.single_le_sum hnonneg w hw)
    obtain ⟨part, hpart, hproportional⟩ := exact_partition_proportional hn hm hnonneg hsum
    exact ⟨part, hpart, (haligned _ _ _ weights part (List.ne_nil_of_mem hw) hpart).1,
      hproportional⟩

/-- With a negative weight, the position of the second boundary is below the first boundary. With
weights that are not negative, the boundary for a quarter of a hundred is rounded up from
twenty-five. -/
theorem partitionByWeights_aligned_hundred :
    AlignedPartition 100 16 3 [0, 80, 80, 100] ∧ Proportional 100 16 [1, 3] [0, 32, 100] := by
  obtain ⟨hall, -, -, hexact⟩ := @partitionByWeights_aligned 100 16 (by decide) (by decide)
  have hnegative : Weighing.exact.partition 100 16 [3, -1, 2] = .ok [0, 80, 80, 100] :=
    toOption_eq_some_iff.mp (by decide +kernel)
  have hquarter : Weighing.exact.partition 100 16 [1, 3] = .ok [0, 32, 100] :=
    toOption_eq_some_iff.mp (by decide +kernel)
  have hnonneg : ∀ w ∈ [(1 : ℚ), 3], 0 ≤ w := by simp
  obtain ⟨part, hpart, -, hproportional⟩ := hexact [1, 3] hnonneg ⟨1, by simp⟩
  cases hpart.symm.trans hquarter
  exact ⟨(hall _ _ Weighing.exact [3, -1, 2] _ (by simp) hnegative).1, hproportional⟩

end DistributedVector
