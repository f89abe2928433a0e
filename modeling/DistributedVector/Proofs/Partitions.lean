import DistributedVector.Vector.Descriptor
import Mathlib.Algebra.Order.Floor.Ring
import Mathlib.Data.Rat.Floor

/-!
# Aligned partitions

Boundaries make a partition if there is one more of them than devices, the first is zero, the last
is the number of elements and none is below the one before it; these are the boundaries that are not
refused. They are aligned if those between the first and the last are multiples of an alignment, as
long as elements are left. Equal chunks are an aligned partition whose boundaries are the multiples
of one length, up to the number of elements.

## Main definitions

* `IsPartition`, `AlignedPartition` — boundaries that make a partition
* `EqualChunks` — boundaries that are the multiples of a length

## Main results

* `validatePartition_iff` — partitions are what is not refused
* `alignUp_isLeast` — rounding up gives the least multiple
* `partitionEqually_chunks` — equal chunks of the least aligned length that suffices
-/

namespace DistributedVector

/-- Boundaries of a partition of `n` elements over devices. -/
structure IsPartition (n : Int) (devices : Nat) (part : List Int) : Prop where
  length : part.length = devices + 1
  first : part.head? = some 0
  last : part.getLast? = some n
  monotone : part.Pairwise (· ≤ ·)

/-- A partition whose boundaries between the first and the last are multiples of an alignment, or
the number of elements. -/
structure AlignedPartition (n alignment : Int) (devices : Nat) (part : List Int) : Prop
    extends IsPartition n devices part where
  interior : ∀ i b, 0 < i → i < devices → part[i]? = some b → b = n ∨ alignment ∣ b

variable {n m : Int} {devices : Nat} {part : List Int}

/-! ## What is not refused -/

theorem nondecreasing_iff : nondecreasing part ↔ part.Pairwise (· ≤ ·) := by
  induction part with
  | nil => simp [nondecreasing]
  | cons a rest ih =>
    cases rest with
    | nil => simp [nondecreasing]
    | cons b rest =>
      rw [nondecreasing, Bool.and_eq_true, decide_eq_true_eq, ih]
      constructor
      · intro h
        -- what is not below the second boundary is not below the first
        have hbehind := fun c hc => Int.le_trans h.1 ((List.pairwise_cons.mp h.2).1 c hc)
        exact List.pairwise_cons.mpr ⟨List.forall_mem_cons.mpr ⟨h.1, hbehind⟩, h.2⟩
      · intro h
        have hfirst := (List.pairwise_cons.mp h).1
        exact ⟨hfirst b List.mem_cons_self, h.of_cons⟩

theorem validatePartition_eq_ok {part : List Int} {n devices : Int}
    (h : validatePartition part n devices = .ok ()) : ∃ rest : List Int, part = 0 :: rest ∧
      (rest.length : Int) = devices ∧ part.getLast? = some n ∧ nondecreasing part := by
  unfold validatePartition at h
  split at h
  · cases h
  next hlength =>
    split at h
    next first last hfirst hlast =>
      split at h
      · cases h
      next hspan =>
        split at h
        next hmonotone =>
          obtain ⟨rfl, rfl⟩ : first = 0 ∧ last = n := by simpa [not_or] using hspan
          obtain ⟨rest, rfl⟩ := List.head?_eq_some_iff.mp hfirst
          refine ⟨rest, rfl, ?_, hlast, hmonotone⟩
          simp only [List.length_cons] at hlength
          omega
        · cases h
    · cases h

/-- Partitions are the boundaries that are not refused. -/
theorem validatePartition_iff : validatePartition part n devices = .ok () ↔
    IsPartition n devices part := by
  constructor
  · intro h
    obtain ⟨rest, rfl, hlength, hlast, hmonotone⟩ := validatePartition_eq_ok h
    have hrest : rest.length = devices := by exact_mod_cast hlength
    exact ⟨by rw [List.length_cons, hrest], rfl, hlast, nondecreasing_iff.mp hmonotone⟩
  · intro h
    have hlength : (part.length : Int) = devices + 1 := by exact_mod_cast h.length
    have hmonotone : nondecreasing part = true := nondecreasing_iff.mpr h.monotone
    rw [validatePartition, h.first, h.last]
    simp [hlength, hmonotone]

/-! ## Rounding up -/

/-- The next multiple is one, is not too small, and is the next one. -/
theorem alignUp_spec {n m : Int} (hm : 1 ≤ m) :
    ∃ q, alignUp n m = q * m ∧ n ≤ alignUp n m ∧ alignUp n m < n + m := by
  have hmod : n.fmod m = n % m := Int.fmod_eq_emod_of_nonneg n (by omega)
  have hdiv : n % m + m * (n / m) = n := Int.emod_add_mul_ediv n m
  have hlower := Int.emod_nonneg n (show m ≠ 0 by omega)
  have hupper := Int.emod_lt_of_pos n (show 0 < m by omega)
  rw [alignUp, hmod]
  split
  next hzero => exact ⟨n / m, by rw [Int.mul_comm]; omega, by omega, by omega⟩
  next => exact ⟨n / m + 1, by rw [Int.add_mul, Int.mul_comm (n / m)]; omega, by omega, by omega⟩

/-- Rounding up gives the least multiple that is not too small. -/
theorem alignUp_isLeast (hm : 1 ≤ m) : IsLeast {c : Int | m ∣ c ∧ n ≤ c} (alignUp n m) := by
  obtain ⟨q, hq, hlower, hupper⟩ := alignUp_spec (n := n) hm
  constructor
  · exact ⟨hq ▸ Int.dvd_mul_left q m, hlower⟩
  · rintro c ⟨⟨k, rfl⟩, hc⟩
    rw [Int.mul_comm] at hc ⊢
    -- a multiple between the two would be strictly between neighbouring multiples
    have hlt : q * m < (k + 1) * m := by
      rw [Int.add_mul]
      omega
    have hle : q ≤ k := Int.lt_add_one_iff.mp (Int.lt_of_mul_lt_mul_right hlt (by omega))
    rw [hq]
    exact Int.mul_le_mul_of_nonneg_right hle (by omega)

theorem alignUp_mono {a b : Int} (hm : 1 ≤ m) (h : a ≤ b) : alignUp a m ≤ alignUp b m :=
  (alignUp_isLeast hm).2 ⟨(alignUp_isLeast hm).1.1, Int.le_trans h (alignUp_isLeast hm).1.2⟩

/-! ## Boundaries given one by one -/

variable {f : Nat → Int}

/-- Boundaries that do not decrease from zero to the number of elements are a partition. -/
theorem isPartition_map_range (hzero : f 0 = 0) (hlast : f devices = n)
    (hmono : ∀ i j, i ≤ j → f i ≤ f j) :
    IsPartition n devices ((List.range (devices + 1)).map f) where
  length := by simp
  first := by simp [List.range_succ_eq_map, hzero]
  last := by simp [List.range_succ, hlast]
  monotone := List.pairwise_map.mpr (List.pairwise_lt_range.imp fun h => hmono _ _ h.le)

theorem lengthsOf_map_range' (f : Nat → Int) (start count : Nat) :
    lengthsOf ((List.range' start (count + 1)).map f) =
      (List.range' start count).map fun i => (f (i + 1) - f i).toNat := by
  induction count generalizing start with
  | zero => rfl
  | succ count ih =>
    have hrest := ih (start + 1)
    rw [List.range'_succ, List.map_cons] at hrest
    rw [List.range'_succ, List.range'_succ, List.map_cons, List.map_cons, lengthsOf, hrest,
      List.range'_succ, List.map_cons]

/-! ## Equal chunks -/

/-- Boundaries that are the multiples of a length, up to the number of elements: all slices are full
that have elements behind them, there is none with elements behind an empty one, and none is longer
than an equal share by more than the alignment can add. -/
structure EqualChunks (n chunk : Int) (devices : Nat) (part : List Int) : Prop where
  boundary : ∀ i ≤ devices, part[i]? = some (min n (i * chunk))
  full : (lengthsOf part).Pairwise fun x y : Nat => (y ≠ 0 → (x : Int) = chunk) ∧ (x = 0 → y = 0)
  bounded : ∀ x ∈ lengthsOf part, (x : Int) ≤ ⌈(n : ℚ) / devices⌉ + 15

/-- The length of the chunks: an equal share, rounded up. -/
def chunkLength (n : Int) (devices : Nat) : Int :=
  alignUp ((n + devices - 1).fdiv devices) partitionAlignment

theorem fdiv_eq_ceil (hdevices : 0 < devices) :
    (n + devices - 1).fdiv devices = ⌈(n : ℚ) / devices⌉ := by
  have hpos : (0 : ℚ) < devices := by exact_mod_cast hdevices
  rw [Int.fdiv_eq_ediv_of_nonneg _ (Int.natCast_nonneg devices), eq_comm, Int.ceil_eq_iff,
    lt_div_iff₀ hpos, div_le_iff₀ hpos]
  have hdiv := Int.emod_add_mul_ediv (n + devices - 1) devices
  have hlower := Int.emod_nonneg (n + devices - 1) (show (devices : Int) ≠ 0 by omega)
  have hupper := Int.emod_lt_of_pos (n + devices - 1) (show 0 < (devices : Int) by omega)
  generalize (n + devices - 1) / (devices : Int) = q at *
  rw [Int.mul_comm] at hdiv
  have hbelow : (q - 1) * devices < n := by
    rw [Int.sub_mul]
    omega
  have habove : n ≤ q * devices := by omega
  exact ⟨by exact_mod_cast hbelow, by exact_mod_cast habove⟩

/-- The length of the chunks is the least multiple of the alignment that an equal share fits in. -/
theorem chunkLength_isLeast (hdevices : 0 < devices) :
    IsLeast {c : Int | 16 ∣ c ∧ ⌈(n : ℚ) / devices⌉ ≤ c} (chunkLength n devices) := by
  rw [chunkLength, fdiv_eq_ceil hdevices]
  exact alignUp_isLeast (by decide)

theorem chunkLength_lt (hdevices : 0 < devices) :
    chunkLength n devices < ⌈(n : ℚ) / devices⌉ + 16 := by
  rw [chunkLength, fdiv_eq_ceil hdevices]
  obtain ⟨-, -, -, hupper⟩ := alignUp_spec (n := ⌈(n : ℚ) / devices⌉) (m :=
    partitionAlignment) (by decide)
  exact hupper

theorem chunkLength_nonneg (hn : 0 ≤ n) (hdevices : 0 < devices) : 0 ≤ chunkLength n devices := by
  have hshare : 0 ≤ ⌈(n : ℚ) / devices⌉ := Int.ceil_nonneg (by positivity)
  exact Int.le_trans hshare (chunkLength_isLeast hdevices).1.2

/-- A chunk for each device is enough for all elements. -/
theorem le_mul_chunkLength (hdevices : 0 < devices) : n ≤ devices * chunkLength n devices := by
  have hpos : (0 : ℚ) < devices := by exact_mod_cast hdevices
  have hshare : (n : ℚ) / devices ≤ chunkLength n devices :=
    Int.ceil_le.mp (chunkLength_isLeast hdevices).1.2
  rw [div_le_iff₀ hpos, mul_comm] at hshare
  exact_mod_cast hshare

/-- Boundaries that follow a multiple of the length are the next multiples, up to the number of
elements. -/
theorem chunksFrom_eq {chunk : Int} (hchunk : 0 ≤ chunk) (count i : Nat) :
    chunksFrom n chunk (min n (i * chunk)) count =
      (List.range' (i + 1) count).map fun j : Nat => min n (j * chunk) := by
  induction count generalizing i with
  | zero => rfl
  | succ count ih =>
    -- going on from the number of elements is going on from the multiple that it has cut off
    have hnext : min n (min n (i * chunk) + chunk) = min n ((i + 1 : Nat) * chunk) := by
      rw [Nat.cast_succ, Int.add_mul, Int.one_mul]
      omega
    rw [chunksFrom, hnext, ih (i + 1), List.range'_succ, List.map_cons]

theorem partitionEqually_eq (hn : 0 ≤ n) (hdevices : 1 < devices) :
    partitionEqually n devices =
      (List.range (devices + 1)).map fun i : Nat => min n (i * chunkLength n devices) := by
  have hchunks := chunksFrom_eq (n := n) (chunkLength_nonneg hn (by omega : 0 < devices)) devices 0
  have hzero : min n ((0 : Nat) * chunkLength n devices) = 0 := by
    rw [Nat.cast_zero, Int.zero_mul]
    omega
  rw [hzero] at hchunks
  rw [partitionEqually, if_pos hdevices, List.range_eq_range', List.range'_succ,
    List.map_cons, hzero]
  exact congrArg (0 :: ·) hchunks

theorem equalChunks_map_range {chunk : Int} (hchunk : 0 ≤ chunk)
    (hbounded : chunk ≤ ⌈(n : ℚ) / devices⌉ + 15) :
    EqualChunks n chunk devices ((List.range (devices + 1)).map fun i : Nat =>
      min n (i * chunk)) := by
  have hlengths := lengthsOf_map_range' (fun i : Nat => min n (i * chunk)) 0 devices
  rw [← List.range_eq_range', ← List.range_eq_range'] at hlengths
  have hnext : ∀ i : Nat, ((i + 1 : Nat) : Int) * chunk = i * chunk + chunk := fun i => by
    rw [Nat.cast_succ, Int.add_mul, Int.one_mul]
  constructor
  · intro i hi
    rw [List.getElem?_map, List.getElem?_range (Nat.lt_succ_of_le hi), Option.map_some]
  · rw [hlengths]
    refine List.pairwise_map.mpr (List.pairwise_lt_range.imp fun {i j} hij => ?_)
    -- the slice in front ends where the one behind starts, or earlier
    have hle : ((i + 1 : Nat) : Int) * chunk ≤ j * chunk :=
      Int.mul_le_mul_of_nonneg_right (by exact_mod_cast hij) hchunk
    rw [hnext] at hle
    simp only [hnext]
    omega
  · rw [hlengths]
    intro x hx
    obtain ⟨i, -, rfl⟩ := List.mem_map.mp hx
    simp only [hnext]
    omega

theorem partitionEqually_one (n : Int) : partitionEqually n 1 = [0, n] := rfl

theorem partitionEqually_isPartition (hn : 0 ≤ n) (hdevices : 1 ≤ devices) :
    IsPartition n devices (partitionEqually n devices) := by
  by_cases hone : devices = 1
  · subst hone
    rw [partitionEqually_one]
    exact ⟨rfl, rfl, rfl, by simpa using hn⟩
  · rw [partitionEqually_eq hn (by omega)]
    apply isPartition_map_range
    · simpa using hn
    · exact min_eq_left (le_mul_chunkLength (by omega))
    · intro i j hij
      have hchunk := chunkLength_nonneg hn (by omega : 0 < devices)
      exact min_le_min_left n (Int.mul_le_mul_of_nonneg_right (by exact_mod_cast hij) hchunk)

theorem partitionEqually_equalChunks (hn : 0 ≤ n) (hdevices : 1 < devices) :
    EqualChunks n (chunkLength n devices) devices (partitionEqually n devices) := by
  have hlt := chunkLength_lt (n := n) (by omega : 0 < devices)
  rw [partitionEqually_eq hn hdevices]
  exact equalChunks_map_range (chunkLength_nonneg hn (by omega)) (by omega)

/-- Boundaries that are multiples of an aligned length, up to the number of elements, are
aligned. -/
theorem EqualChunks.aligned {chunk : Int} (h : EqualChunks n chunk devices part)
    (hchunk : m ∣ chunk) {i : Nat} (hi : i ≤ devices) {b : Int}
    (hb : part[i]? = some b) : b = n ∨ m ∣ b := by
  obtain rfl : min n (i * chunk) = b := Option.some_inj.mp ((h.boundary i hi).symm.trans hb)
  rcases min_choice n (i * chunk) with hmin | hmin
  · exact .inl hmin
  · rw [hmin]
    exact .inr (hchunk.mul_left _)

/-- Equal chunks. Whatever the number of elements and however many devices there are, the boundaries
are a partition that is aligned to 16, and are not refused. Where there are several devices, the
boundaries are the multiples, up to the number of elements, of the least multiple of 16 that an
equal share fits in. -/
theorem partitionEqually_chunks (hn : 0 ≤ n) (hdevices : 1 ≤ devices) :
    AlignedPartition n 16 devices (partitionEqually n devices) ∧
    validatePartition (partitionEqually n devices) n devices = .ok () ∧
    (1 < devices → ∃ chunk, IsLeast {c : Int | 16 ∣ c ∧ ⌈(n : ℚ) / devices⌉ ≤ c} chunk ∧
      EqualChunks n chunk devices (partitionEqually n devices)) := by
  have hpart := partitionEqually_isPartition hn hdevices
  have hleast := chunkLength_isLeast (n := n) (by omega : 0 < devices)
  refine ⟨⟨hpart, fun i b hi hlt hb => ?_⟩, validatePartition_iff.mpr hpart,
    fun hmany => ⟨_, hleast, partitionEqually_equalChunks hn hmany⟩⟩
  -- there are boundaries between the first and the last only where there are several devices
  exact (partitionEqually_equalChunks hn (by omega)).aligned hleast.1.1 hlt.le hb

/-- Forty elements on four devices: a share of ten is rounded up to sixteen, the third device gets
the rest and the fourth one nothing. -/
theorem partitionEqually_chunks_forty :
    AlignedPartition 40 16 4 [0, 16, 32, 40, 40] ∧ EqualChunks 40 16 4 [0, 16, 32, 40, 40] := by
  have hforty : partitionEqually 40 4 = [0, 16, 32, 40, 40] := by decide
  obtain ⟨haligned, -, hmany⟩ := @partitionEqually_chunks 40 4 (by decide) (by decide)
  obtain ⟨chunk, -, hequal⟩ := hmany (by decide)
  rw [hforty] at haligned hequal
  -- the second boundary tells the length of the chunks
  have hsecond : (16 : Int) = min 40 ((1 : Nat) * chunk) :=
    Option.some_inj.mp (hequal.boundary 1 (by decide))
  obtain rfl : chunk = 16 := by omega
  exact ⟨haligned, hequal⟩

end DistributedVector
