import DistributedVector.Session.Cache
import Mathlib.Algebra.Order.Ring.Int
import Mathlib.Data.Int.Bitwise
import Mathlib.Order.Bounds.Basic

/-!
# Halving

A workgroup is found by halving the largest one that is allowed, limit after limit, until it is
within the limit or has a single thread. Sizes that may be set are the powers of two, and halving a
power of two leaves out no power of two in between. So the outcome is the largest power of two
within all limits, a limit below one counting as one. It depends on which limits there are, and on
nothing else.

## Main definitions

* `fitting` — the powers of two within all limits
* `halvingTurn` — one turn of the loops that halve

## Main results

* `SessionConfig.validate_eq_ok_iff` — settings that are accepted
* `halveTo_mono`, `halveTo_halveTo_of_le`, `halveTo_halveTo_of_ge` — one limit, and two in a row
* `selectWorkgroup_isGreatest` — the outcome is the largest size that fits
* `exists_iterate_halvingTurn` — the loops end
* `selectWorkgroup_best` — all together
-/

namespace DistributedVector

variable {limit limit' size w : Int} {limits limits' : List Int}

/-! ## Sizes that may be set -/

theorem isPowerOfTwo_iff {n : Int} : isPowerOfTwo n = true ↔ ∃ k : ℕ, n = 2 ^ k := by
  simp only [isPowerOfTwo, Bool.and_eq_true, decide_eq_true_eq]
  constructor
  · intro h
    have hcast : ((2 ^ n.toNat.log2 : ℕ) : Int) = n.toNat := congrArg Nat.cast h.2
    rw [Int.toNat_of_nonneg (by omega)] at hcast
    exact ⟨n.toNat.log2, by exact_mod_cast hcast.symm⟩
  · rintro ⟨k, rfl⟩
    have hnat : ((2 : Int) ^ k).toNat = 2 ^ k := by exact_mod_cast Int.toNat_natCast (2 ^ k)
    rw [hnat, Nat.log2_two_pow]
    exact ⟨by exact_mod_cast Nat.one_le_two_pow, rfl⟩

/-- The powers of two among positive numbers are told by their digits. -/
theorem isPowerOfTwo_iff_land {n : Int} : isPowerOfTwo n = true ↔
    1 ≤ n ∧ Int.land n (n - 1) = 0 := by
  by_cases hn : 1 ≤ n
  · obtain ⟨a, rfl⟩ := Int.eq_ofNat_of_zero_le (by omega : 0 ≤ n)
    -- the digits of a positive number and of the one before it are those of natural numbers
    have hpred : ((a : Int) - 1) = (a - 1 : ℕ) := by omega
    have hland : Int.land a ((a : Int) - 1) = (a &&& (a - 1) : ℕ) := by rw [hpred]; rfl
    have hdigits := Nat.and_sub_one_eq_zero_iff_isPowerOfTwo (show a ≠ 0 by omega)
    rw [isPowerOfTwo_iff, hland, Nat.cast_eq_zero, hdigits]
    constructor
    · rintro ⟨k, hk⟩
      exact ⟨hn, k, by exact_mod_cast hk⟩
    · rintro ⟨-, k, hk⟩
      exact ⟨k, by exact_mod_cast hk⟩
  · simp [isPowerOfTwo, hn]

/-- Settings are accepted if the largest workgroup is a power of two and there are workgroups for
each compute unit. -/
theorem SessionConfig.validate_eq_ok_iff {config : SessionConfig} : config.validate = .ok config ↔
    (∃ k : ℕ, config.maxWorkgroup = 2 ^ k) ∧ 1 ≤ config.wavesPerUnit := by
  rw [← isPowerOfTwo_iff, validate]
  by_cases hpower : isPowerOfTwo config.maxWorkgroup = true
  · by_cases hwaves : config.wavesPerUnit < 1
    · simp [hpower, hwaves]
    · simp [hpower, hwaves, Int.not_lt.mp hwaves]
  · simp [hpower]

theorem one_le_of_two_pow (hsize : ∃ k : ℕ, size = 2 ^ k) : 1 ≤ size := by
  obtain ⟨k, rfl⟩ := hsize
  exact_mod_cast Nat.one_le_two_pow

theorem SessionConfig.one_le_maxWorkgroup {config : SessionConfig}
    (h : config.validate = .ok config) : 1 ≤ config.maxWorkgroup :=
  one_le_of_two_pow (validate_eq_ok_iff.mp h).1

/-! ## One limit -/

/-- Halving ends within the limit, or at a single thread. -/
theorem halveTo_le_max : halveTo limit size ≤ max 1 limit := by
  fun_induction halveTo limit size with
  | case1 size h ih => exact ih
  | case2 size h => omega

/-- Halving comes to an end within every limit that leaves room for one. -/
theorem halveTo_le (hlimit : 1 ≤ limit) : halveTo limit size ≤ limit := by
  have hle : halveTo limit size ≤ max 1 limit := halveTo_le_max
  omega

theorem halveTo_le_size : halveTo limit size ≤ size := by
  fun_induction halveTo limit size with
  | case1 size h ih => omega
  | case2 size h => exact Int.le_refl size

theorem one_le_halveTo {limit size : Int} (h : 1 ≤ size) : 1 ≤ halveTo limit size := by
  fun_induction halveTo limit size with
  | case1 size hsize ih => exact ih (by omega)
  | case2 size hsize => exact h

/-- A smaller limit gives a smaller size. -/
theorem halveTo_mono (h : limit ≤ limit') : halveTo limit size ≤ halveTo limit' size := by
  fun_induction halveTo limit' size with
  | case1 size hsize ih => rwa [halveTo, dif_pos (by omega)]
  | case2 size hsize => exact halveTo_le_size

/-- Two limits in a row: the smaller one counts, whichever comes first. -/
theorem halveTo_halveTo_of_le (h : limit ≤ limit') :
    halveTo limit (halveTo limit' size) = halveTo limit size := by
  fun_induction halveTo limit' size with
  | case1 size hsize ih =>
    rw [ih]
    conv_rhs => rw [halveTo, dif_pos (show limit < size ∧ 1 < size by omega)]
  | case2 size hsize => rfl

theorem halveTo_halveTo_of_ge (h : limit' ≤ limit) :
    halveTo limit (halveTo limit' size) = halveTo limit' size := by
  fun_induction halveTo limit' size with
  | case1 size hsize ih => exact ih
  | case2 size hsize =>
    rw [halveTo, dif_neg (by omega)]

/-- A power of two above one is twice a power of two. -/
theorem exists_two_mul_two_pow (hsize : ∃ k : ℕ, size = 2 ^ k) (hlarge : 1 < size) :
    ∃ j : ℕ, size = 2 * 2 ^ j := by
  obtain ⟨k, rfl⟩ := hsize
  cases k with
  | zero => exact absurd hlarge (by simp)
  | succ j => exact ⟨j, pow_succ' 2 j⟩

theorem half_two_pow (hsize : ∃ k : ℕ, size = 2 ^ k) (hlarge : 1 < size) :
    ∃ k : ℕ, size / 2 = 2 ^ k := by
  obtain ⟨j, rfl⟩ := exists_two_mul_two_pow hsize hlarge
  exact ⟨j, by omega⟩

/-- There is no power of two between a power of two and its half. -/
theorem le_half_of_lt (hsize : ∃ k : ℕ, size = 2 ^ k) (hw : ∃ k : ℕ, w = 2 ^ k) (h : w < size) :
    w ≤ size / 2 := by
  have hone := one_le_of_two_pow hw
  obtain ⟨j, rfl⟩ := exists_two_mul_two_pow hsize (by omega)
  obtain ⟨i, rfl⟩ := hw
  rw [← pow_succ'] at h
  have hi : i < j + 1 := (pow_lt_pow_iff_right₀ (by decide)).mp h
  have hle : (2 : Int) ^ i ≤ 2 ^ j := pow_le_pow_right₀ (by decide) (by omega)
  omega

theorem halveTo_two_pow (hsize : ∃ k : ℕ, size = 2 ^ k) : ∃ k : ℕ, halveTo limit size = 2 ^ k := by
  fun_induction halveTo limit size with
  | case1 size h ih => exact ih (half_two_pow hsize h.2)
  | case2 size h => exact hsize

/-- Halving keeps exactly the powers of two that are within the limit. -/
theorem le_halveTo_iff (hsize : ∃ k : ℕ, size = 2 ^ k) (hw : ∃ k : ℕ, w = 2 ^ k) :
    w ≤ halveTo limit size ↔ w ≤ size ∧ w ≤ max 1 limit := by
  fun_induction halveTo limit size with
  | case1 size h ih =>
    rw [ih (half_two_pow hsize h.2)]
    constructor
    · intro hle
      omega
    · intro hle
      -- what is within the limit is below the size, and so within its half
      exact ⟨le_half_of_lt hsize hw (by omega), hle.2⟩
  | case2 size h => omega

/-! ## All limits -/

/-- The powers of two up to a ceiling that are within all limits, or one. -/
def fitting (ceiling : Int) (limits : List Int) : Set Int :=
  {w | (∃ k : ℕ, w = 2 ^ k) ∧ w ≤ ceiling ∧ ∀ l ∈ limits, w ≤ max 1 l}

theorem fitting_anti {ceiling : Int} (h : limits ⊆ limits') :
    fitting ceiling limits' ⊆ fitting ceiling limits :=
  fun _ hw => ⟨hw.1, hw.2.1, fun l hl => hw.2.2 l (h hl)⟩

/-- Where limits leave room for one, the powers of two that fit are within all of them. -/
theorem fitting_eq {ceiling : Int} (hlimits : ∀ l ∈ limits, 1 ≤ l) :
    fitting ceiling limits = {w | (∃ k : ℕ, w = 2 ^ k) ∧ w ≤ ceiling ∧ ∀ l ∈ limits, w ≤ l} := by
  have hmax : ∀ w, (∀ l ∈ limits, w ≤ max 1 l) ↔ ∀ l ∈ limits, w ≤ l := by
    intro w
    apply forall₂_congr
    intro l hl
    rw [max_eq_right (hlimits l hl)]
  simp only [fitting, hmax]

/-- What fits after halving for a limit is what fits before and is within the limit. -/
theorem fitting_halveTo (hsize : ∃ k : ℕ, size = 2 ^ k) :
    fitting (halveTo limit size) limits = fitting size (limit :: limits) := by
  ext w
  simp only [fitting, Set.mem_ofPred_eq, List.forall_mem_cons]
  apply and_congr_right
  intro hw
  rw [le_halveTo_iff hsize hw, and_assoc]

theorem selectWorkgroup_cons (limit : Int) (limits : List Int) (size : Int) :
    selectWorkgroup (limit :: limits) size = selectWorkgroup limits (halveTo limit size) := rfl

/-- The outcome is the largest size that fits. -/
theorem selectWorkgroup_isGreatest (hsize : ∃ k : ℕ, size = 2 ^ k) :
    IsGreatest (fitting size limits) (selectWorkgroup limits size) := by
  induction limits generalizing size with
  | nil => exact ⟨⟨hsize, Int.le_refl size, by simp⟩, fun w hw => hw.2.1⟩
  | cons limit limits ih =>
    -- the size that halving for the first limit leaves is the ceiling for the others
    rw [selectWorkgroup_cons, ← fitting_halveTo hsize]
    exact ih (halveTo_two_pow hsize)

theorem one_le_selectWorkgroup (limits : List Int) {size : Int} (h : 1 ≤ size) :
    1 ≤ selectWorkgroup limits size := by
  induction limits generalizing size with
  | nil => exact h
  | cons limit rest ih => exact ih (one_le_halveTo h)

/-- The workgroup for several limits is the one for the smallest of them. -/
theorem selectWorkgroup_eq {limits : List Int} (size : Int) (h : limits ≠ []) :
    ∃ l ∈ limits, (∀ l' ∈ limits, l ≤ l') ∧ selectWorkgroup limits size = halveTo l size := by
  induction limits generalizing size with
  | nil => exact absurd rfl h
  | cons l rest ih =>
    by_cases hrest : rest = []
    · subst hrest
      exact ⟨l, List.mem_cons_self, by simp, rfl⟩
    obtain ⟨l', hl', hleast, hselect⟩ := ih (halveTo l size) hrest
    have hstep : selectWorkgroup (l :: rest) size = halveTo l' (halveTo l size) := hselect
    rcases Int.le_total l' l with hle | hle
    · refine ⟨l', List.mem_cons_of_mem l hl', ?_, hstep.trans (halveTo_halveTo_of_le hle)⟩
      simpa [hle] using hleast
    · refine ⟨l, List.mem_cons_self, ?_, hstep.trans (halveTo_halveTo_of_ge hle)⟩
      simpa using fun x hx => Int.le_trans hle (hleast x hx)

/-- With more limits the outcome is smaller, or the same. -/
theorem selectWorkgroup_anti (hsize : ∃ k : ℕ, size = 2 ^ k) (h : limits ⊆ limits') :
    selectWorkgroup limits' size ≤ selectWorkgroup limits size :=
  (selectWorkgroup_isGreatest hsize).mono (selectWorkgroup_isGreatest hsize) (fitting_anti h)

/-- A limit that leaves no room for one leaves a single thread. -/
theorem selectWorkgroup_eq_one (hsize : ∃ k : ℕ, size = 2 ^ k) (hlimits : ∃ l ∈ limits, l < 1) :
    selectWorkgroup limits size = 1 := by
  obtain ⟨l, hl, hlow⟩ := hlimits
  have hfits : selectWorkgroup limits size ∈ fitting size limits :=
    (selectWorkgroup_isGreatest hsize).1
  obtain ⟨hpower, -, hwithin⟩ := hfits
  have hle := hwithin l hl
  -- a power of two is one at least
  have hone := one_le_of_two_pow hpower
  omega

/-! ## Turn after turn -/

/-- One turn of the loops. The size is halved while it is above the limit at hand and above one;
then the next limit is at hand. -/
def halvingTurn : List Int × Int → List Int × Int
  | ([], size) => ([], size)
  | (limit :: rest, size) =>
    if limit < size ∧ 1 < size then (limit :: rest, size / 2) else (rest, size)

/-- The turns for one limit. Each halving takes a digit, so that they are no more than there are
digits to take. -/
theorem exists_halvingTurn_halveTo (limit : Int) (rest : List Int) (size : Int) :
    ∃ halvings, halvings + (halveTo limit size).toNat.log2 ≤ size.toNat.log2 ∧
      halvingTurn^[halvings + 1] (limit :: rest, size) = (rest, halveTo limit size) := by
  fun_induction halveTo limit size with
  | case1 size h ih =>
    obtain ⟨halvings, hle, hturns⟩ := ih
    have hturn : halvingTurn (limit :: rest, size) = (limit :: rest, size / 2) := if_pos h
    have hhalf : (size / 2).toNat = size.toNat / 2 := by omega
    -- a number above one has a digit more than its half
    have hdigits : size.toNat.log2 = (size.toNat / 2).log2 + 1 := by
      rw [Nat.log2_def, if_pos (by omega)]
    refine ⟨halvings + 1, ?_, ?_⟩
    · rw [hdigits, ← hhalf]
      omega
    · rw [Function.iterate_succ_apply, hturn, hturns]
  | case2 size h =>
    have hturn : halvingTurn (limit :: rest, size) = (rest, size) := if_neg h
    exact ⟨0, (Nat.zero_add _).le, hturn⟩

/-- The loops end with the outcome, after a turn for each limit and one for each digit of the size
at most. -/
theorem exists_iterate_halvingTurn (limits : List Int) (size : Int) :
    ∃ turns ≤ limits.length + size.toNat.log2,
      halvingTurn^[turns] (limits, size) = ([], selectWorkgroup limits size) := by
  induction limits generalizing size with
  | nil => exact ⟨0, Nat.zero_le _, rfl⟩
  | cons limit rest ih =>
    obtain ⟨halvings, hhalvings, hfirst⟩ := exists_halvingTurn_halveTo limit rest size
    obtain ⟨turns, hturns, hrest⟩ := ih (halveTo limit size)
    refine ⟨turns + (halvings + 1), ?_, ?_⟩
    · rw [List.length_cons]
      omega
    · rw [Function.iterate_add_apply, hfirst, hrest, selectWorkgroup_cons]

/-- Halving finds the best workgroup. The sizes that may be set are the powers of two. For each of
them, and whatever the limits are, the outcome is the largest power of two within the size and all
limits if these leave room for one, and one otherwise. It is the same for limits in another order or
with repetitions, and no larger for more limits. The loops end. -/
theorem selectWorkgroup_best :
    (∀ config : SessionConfig, config.validate = .ok config ↔
      (∃ k : ℕ, config.maxWorkgroup = 2 ^ k) ∧ 1 ≤ config.wavesPerUnit) ∧
    (∀ ceiling, isPowerOfTwo ceiling = true ↔ 1 ≤ ceiling ∧ Int.land ceiling (ceiling - 1) = 0) ∧
    ∀ config : SessionConfig, config.validate = .ok config → ∀ limits : List Int,
      ((∀ l ∈ limits, 1 ≤ l) →
        IsGreatest {w | (∃ k : ℕ, w = 2 ^ k) ∧ w ≤ config.maxWorkgroup ∧ ∀ l ∈ limits, w ≤ l}
          (selectWorkgroup limits config.maxWorkgroup)) ∧
      ((∃ l ∈ limits, l < 1) → selectWorkgroup limits config.maxWorkgroup = 1) ∧
      (∀ limits' : List Int, (∀ l, l ∈ limits' ↔ l ∈ limits) →
        selectWorkgroup limits' config.maxWorkgroup = selectWorkgroup limits config.maxWorkgroup) ∧
      (∀ limits' : List Int, limits ⊆ limits' →
        selectWorkgroup limits' config.maxWorkgroup ≤ selectWorkgroup limits config.maxWorkgroup) ∧
      ∃ turns ≤ limits.length + config.maxWorkgroup.toNat.log2,
        halvingTurn^[turns] (limits, config.maxWorkgroup) =
          ([], selectWorkgroup limits config.maxWorkgroup) := by
  refine ⟨fun _ => SessionConfig.validate_eq_ok_iff, fun _ => isPowerOfTwo_iff_land, ?_⟩
  intro config hconfig limits
  have hpower := (SessionConfig.validate_eq_ok_iff.mp hconfig).1
  refine ⟨?_, selectWorkgroup_eq_one hpower, ?_, fun _ => selectWorkgroup_anti hpower,
    exists_iterate_halvingTurn limits config.maxWorkgroup⟩
  · intro hlimits
    rw [← fitting_eq hlimits]
    exact selectWorkgroup_isGreatest hpower
  · intro limits' hsame
    -- limits with the same members are among each other
    exact Int.le_antisymm (selectWorkgroup_anti hpower fun l => (hsame l).mpr)
      (selectWorkgroup_anti hpower fun l => (hsame l).mp)

/-- Limits of three hundred and one hundred leave sixty-four of 1024 threads. A limit of zero leaves
one. -/
theorem selectWorkgroup_best_1024 :
    IsGreatest {w : Int | (∃ k : ℕ, w = 2 ^ k) ∧ w ≤ 1024 ∧ ∀ l ∈ [(300 : Int), 100], w ≤ l} 64 ∧
    selectWorkgroup [300, 0] 1024 = 1 := by
  obtain ⟨haccepted, -, hbest⟩ := selectWorkgroup_best
  have hconfig := (haccepted { maxWorkgroup := 1024 }).mpr ⟨⟨10, rfl⟩, by decide⟩
  have hsixty : selectWorkgroup [300, 100] 1024 = 64 := by decide +kernel
  have hgreatest := (hbest _ hconfig [300, 100]).1 (by decide)
  rw [hsixty] at hgreatest
  exact ⟨hgreatest, (hbest _ hconfig [300, 0]).2.1 ⟨0, by decide⟩⟩

end DistributedVector
