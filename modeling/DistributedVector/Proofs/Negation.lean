import DistributedVector.Element.Scalar
import Mathlib

/-!
# Opposite doubles

Subtracting a double is adding its opposite, bit by bit: both round the same exact number. An
integer is converted to a double by its size, so that the double of its opposite is the opposite
double. Only zero has no opposite among the integers, whereas there are two double zeros; what is
left of the difference is the sign of a zero.

Operations on doubles unpack their operands and pack their results. The opposite of a double has
been packed and is unpacked again before it is added, which changes nothing.

## Main definitions

* `Binary64.ofFields` — the number that the bits of a double stand for
* `Binary64.Same` — equal up to the sign of a zero

## Main results

* `Binary64.unpack_neg` — the opposite double stands for the opposite number
* `Binary64.same_add_neg` — an integer subtracted from a double
-/

namespace DistributedVector.Binary64

open Float.Model Float.Model.UnpackedFloat

/-- A fraction behind the leading one. -/
theorem toNat_one_append (m : BitVec 52) : (1#1 ++ m).toNat = 2 ^ 52 + m.toNat := by
  rw [BitVec.toNat_append, ← Nat.shiftLeft_add_eq_or_of_lt m.isLt]
  rfl

/-- The number that a sign, an exponent and a fraction stand for. -/
def ofFields (s : UnpackedFloat.Sign) (e : BitVec 11) (m : BitVec 52) : UnpackedFloat :=
  if e = -1#11 then
    if m = 0#52 then .infinity s else .notANumber
  else if e = 0#11 then
    if h : m = 0#52 then .zero s
    else .finite s m.toNat ((e.toNat : Int) - (1023 + 52 : Nat) + 1)
      (by simpa [BitVec.toNat_pos, BitVec.pos_iff_ne_zero])
  else .finite s (1#1 ++ m).toNat ((e.toNat : Int) - (1023 + 52 : Nat))
    (by rw [toNat_one_append]; omega)

theorem unpack_eq (b : BitVec 64) : unpack .binary64 b =
    ofFields (Sign.ofBitVec (@unpackSign .binary64 b)) (@unpackExponent .binary64 b)
      (@unpackMantissa .binary64 b) := rfl

theorem neg_ofFields (s : UnpackedFloat.Sign) (e : BitVec 11) (m : BitVec 52) :
    (ofFields s e m).neg = ofFields (-s) e m := by
  unfold ofFields
  split
  · split <;> rfl
  · split
    · split <;> rfl
    · rfl

section Packing

variable (s : UnpackedFloat.Sign) {e : BitVec 11} {m : BitVec 52}

theorem unpackSign_packComponents (e : BitVec 11) (m : BitVec 52) :
    unpackSign (packComponents .binary64 s e m) = s.toBitVec := by
  simp only [unpackSign, packComponents, BitVec.extractLsb]
  rw [BitVec.extractLsb'_append_eq_of_le (by decide),
    BitVec.extractLsb'_append_eq_of_le (by decide)]
  cases s <;> rfl

theorem unpack_packComponents (e : BitVec 11) (m : BitVec 52) :
    unpack .binary64 (packComponents .binary64 s e m) = ofFields s e m := by
  rw [unpack_eq, unpackSign_packComponents, unpackExponent_packComponents,
    unpackMantissa_packComponents]
  cases s <;> rfl

/-- Finite numbers in the range of the format are stored with the leading one left out, if they have
it at its place. -/
theorem pack_finite {n : Nat} {k : Int} {hn : 0 < n} (h : n < 2 ^ 53) (hlower : -1074 ≤ k)
    (hupper : k ≤ 971) :
    pack .binary64 (.finite s n k hn) =
      if 2 ^ 52 ≤ n then
        packComponents .binary64 s (BitVec.ofNat 11 (k + 1075).toNat) (BitVec.ofNat 52 n)
      else packComponents .binary64 s 0#11 (BitVec.ofNat 52 n) := by
  have hpack : pack .binary64 (.finite s n k hn) =
      if 2 ^ 11 ≤ (k + 1023 + 52).toNat + 1 then packedInfinity .binary64 s
      else if n.log2 + 1 = 53 then
        packComponents .binary64 s (BitVec.ofNat 11 (k + 1023 + 52).toNat) (BitVec.ofNat 52 n)
      else packComponents .binary64 s 0#11 (BitVec.ofNat 52 n) := rfl
  have hlog : n.log2 + 1 = 53 ↔ 2 ^ 52 ≤ n := by
    have hne := Nat.pos_iff_ne_zero.mp hn
    rw [← Nat.le_log2 hne]
    have := (Nat.log2_lt hne).mpr h
    omega
  have hbiased : (k + 1023 + 52).toNat = (k + 1075).toNat := by omega
  have hfits : ¬ 2 ^ 11 ≤ (k + 1075).toNat + 1 := by omega
  rw [hpack, hbiased, if_neg hfits]
  simp only [hlog]

/-- Numbers are packed into the bits that stand for them. -/
theorem pack_ofFields (h : e = -1#11 → m = 0#52) :
    pack .binary64 (ofFields s e m) = packComponents .binary64 s e m := by
  have hm := m.isLt
  have he := e.isLt
  unfold ofFields
  split
  next hinf =>
    rw [if_pos (h hinf), hinf, h hinf]
    rfl
  next hfinite =>
    split
    next hzero =>
      split
      next hm0 =>
        rw [hzero, hm0]
        rfl
      next hsubnormal =>
        rw [pack_finite s (by omega) (by simp [hzero]) (by simp [hzero]), if_neg (by omega), hzero]
        simp
    next hnormal =>
      -- the leading one of the significand is the bit that is not stored
      have hne : e.toNat ≠ 2047 := fun h => hfinite (BitVec.eq_of_toNat_eq h)
      have hnz : e.toNat ≠ 0 := fun h => hnormal (BitVec.eq_of_toNat_eq h)
      have happend := toNat_one_append m
      rw [pack_finite s (by omega) (by omega) (by omega), if_pos (by omega)]
      congr 1
      · exact BitVec.eq_of_toNat_eq (by simp)
      · exact BitVec.eq_of_toNat_eq (by simp [happend, Nat.mod_eq_of_lt hm])

theorem unpack_pack_ofFields :
    unpack .binary64 (pack .binary64 (ofFields s e m)) = ofFields s e m := by
  by_cases h : e = -1#11 → m = 0#52
  · rw [pack_ofFields s h, unpack_packComponents]
  · -- what is no number is packed into bits of its own
    obtain ⟨he, hm⟩ := Classical.not_imp.mp h
    simp only [ofFields, if_pos he, if_neg hm]
    rfl

end Packing

/-- The opposite double stands for the opposite number. -/
theorem unpack_neg (a : Float) : (-a).toModel.unpack = a.toModel.unpack.neg := by
  have h : ∀ b : BitVec 64, unpack .binary64 (pack .binary64 (unpack .binary64 b).neg) =
      (unpack .binary64 b).neg := by
    intro b
    rw [unpack_eq b, neg_ofFields, unpack_pack_ofFields]
  exact h a.toModel.toBits.toBitVec

theorem apply_neg (s : UnpackedFloat.Sign) (n : Int) : (-s).apply n = -s.apply n := by
  cases s with
  | negative => exact (Int.neg_neg n).symm
  | positive => rfl

theorem sub_eq_add_neg (x y : UnpackedFloat) :
    UnpackedFloat.sub .binary64 x y = UnpackedFloat.add .binary64 x y.neg := by
  cases x with
  | finite => cases y with
    | finite =>
      simp only [UnpackedFloat.sub, UnpackedFloat.add, UnpackedFloat.neg, apply_neg,
        Int.sub_eq_add_neg]
    | _ => rfl
  | _ => cases y <;> rfl

theorem neg_neg (x : UnpackedFloat) : x.neg.neg = x := by
  cases x with
  | notANumber => rfl
  | infinity s | zero s | finite s => cases s <;> rfl

theorem add_neg (a b : Float) : a + -b = a - b := by
  have h : UnpackedFloat.add .binary64 a.toModel.unpack (-b).toModel.unpack =
      UnpackedFloat.sub .binary64 a.toModel.unpack b.toModel.unpack := by
    rw [unpack_neg, sub_eq_add_neg]
  exact congrArg (fun u => Float.ofModel (Float.Model.pack u)) h

theorem sub_neg (a b : Float) : a - -b = a + b := by
  have h : UnpackedFloat.sub .binary64 a.toModel.unpack (-b).toModel.unpack =
      UnpackedFloat.add .binary64 a.toModel.unpack b.toModel.unpack := by
    rw [unpack_neg, sub_eq_add_neg, neg_neg]
  exact congrArg (fun u => Float.ofModel (Float.Model.pack u)) h

/-- Adding the opposite of an integer other than zero is subtracting the integer. -/
theorem add_ofInt_neg (a : Float) {n : Int} (h : n ≠ 0) :
    a + Float.ofInt (-n) = a - Float.ofInt n := by
  cases n with
  | ofNat k =>
    obtain ⟨j, rfl⟩ := Nat.exists_eq_succ_of_ne_zero fun hk => h (congrArg Int.ofNat hk)
    exact add_neg a (Float.ofNat (j + 1))
  | negSucc k => exact (sub_neg a (Float.ofNat (k + 1))).symm

/-- The same number: zeros are not told apart by their signs. -/
def Same (x y : Float) : Prop := x = y ∨ x == y

/-- Zero added or subtracted; the signs differ if the double is the negative zero. -/
theorem same_add_zero (a : Float) : Same (a + Float.ofInt 0) (a - Float.ofInt 0) := by
  have hzero : (Float.ofInt 0).toModel.unpack = .zero .positive := rfl
  have hsum : a + Float.ofInt 0 = .ofModel (.pack (UnpackedFloat.add .binary64 a.toModel.unpack
    (Float.ofInt 0).toModel.unpack)) := rfl
  have hdifference : a - Float.ofInt 0 = .ofModel (.pack (UnpackedFloat.sub .binary64
    a.toModel.unpack (Float.ofInt 0).toModel.unpack)) := rfl
  rw [hsum, hdifference, hzero]
  cases a.toModel.unpack with
  | zero s =>
    cases s with
    -- the negative zero plus zero is the positive zero, and minus zero it stays
    | negative => exact .inr (by decide +kernel)
    | positive => exact .inl rfl
  | notANumber | infinity | finite => exact .inl rfl

/-- Adding the opposite of an integer and subtracting the integer give the same number. -/
theorem same_add_neg (a : Float) (n : Int) : Same (a + Float.ofInt (-n)) (a - Float.ofInt n) := by
  by_cases h : n = 0
  · subst h
    exact same_add_zero a
  · exact .inl (add_ofInt_neg a h)

end DistributedVector.Binary64
