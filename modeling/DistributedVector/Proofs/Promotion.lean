import DistributedVector.Machine.Arithmetic

/-!
# Promotion of integers

In kernel text, integers that are narrower than `int` are promoted to `int` before anything is
computed with them, and all others keep their type. The opposite of an integer is computed in the
promoted type. It is the opposite number for signed promoted types, the least integer apart, and
wraps around for `unsigned int` and `unsigned long long`: what comes out is larger by a power of two
for all integers but zero. Together with a double, an integer is converted to a double, as it is.

## Main definitions

* `ElementType.promoted`, `ElementType.opposite` — the promoted type, and opposites computed in it
* `Arithmetic.Promotes` — arithmetic that computes opposites and differences like this
* `Arithmetic.typed` — arithmetic on numbers with their types

## Main results

* `ElementType.opposite_of_signed`, `ElementType.opposite_of_unsigned` — the two kinds of opposites
* `Arithmetic.typed_promotes` — typed arithmetic does what is asked of it
-/

namespace DistributedVector

namespace ElementType

instance : Inhabited ElementType := ⟨float64⟩

/-- The type that operands of a type have in kernel text. -/
def promoted : ElementType → ElementType
  | int8 | uint8 | int16 | uint16 => int32
  | t => t

/-- The opposite of an integer, as it is computed in kernels. -/
def opposite (t : ElementType) (n : Int) : Int := t.promoted.wrap (-n)

/-- An integer of the type that is not the least one of a signed type. -/
def Opposable (t : ElementType) (n : Int) : Prop :=
  t.InRange n ∧ (t.isSigned → n ≠ -(Nat.pow 2 (t.bits - 1) : Nat))

instance (t : ElementType) (n : Int) : Decidable (t.Opposable n) :=
  inferInstanceAs (Decidable (_ ∧ _))

variable {t : ElementType} {n : Int}

theorem promoted_promoted (t : ElementType) : t.promoted.promoted = t.promoted := by cases t <;> rfl

theorem isFloat_promoted (t : ElementType) : t.promoted.isFloat = t.isFloat := by cases t <;> rfl

theorem bits_promoted_of_unsigned (h : t.promoted.isSigned = false) : t.promoted.bits = t.bits := by
  cases t <;> first | rfl | cases h

/-- The range of a signed type. -/
theorem inRange_iff_of_signed (h : t.isSigned) :
    t.InRange n ↔ -(Nat.pow 2 (t.bits - 1) : Nat) ≤ n ∧ n < (Nat.pow 2 (t.bits - 1) : Nat) := by
  have hbits : Nat.pow 2 t.bits = 2 * Nat.pow 2 (t.bits - 1) := by cases t <;> rfl
  rw [InRange, wrap, if_pos h, hbits]
  generalize Nat.pow 2 (t.bits - 1) = k at hbits
  have hpos : 0 < 2 * k := hbits ▸ Nat.pos_of_ne_zero (by cases t <;> decide)
  constructor
  · intro hn
    have hlower := Int.le_bmod (x := n) hpos
    have hupper := Int.bmod_lt (x := n) hpos
    omega
  · rintro ⟨hlower, hupper⟩
    exact Int.bmod_eq_of_le (by omega) (by omega)

/-- The range of an unsigned type. -/
theorem inRange_iff_of_unsigned (h : t.isSigned = false) :
    t.InRange n ↔ 0 ≤ n ∧ n < (Nat.pow 2 t.bits : Nat) := by
  have hpos : (0 : Int) < (Nat.pow 2 t.bits : Nat) := by cases t <;> decide
  rw [InRange, wrap, if_neg (by simp [h])]
  constructor
  · intro hn
    have hlower := Int.emod_nonneg n (Int.ne_of_gt hpos)
    have hupper := Int.emod_lt_of_pos n hpos
    omega
  · rintro ⟨hlower, hupper⟩
    exact Int.emod_eq_of_lt hlower hupper

/-- Integers of all narrower types have opposites in `int`. -/
theorem opposable_int32 (hlower : -32768 ≤ n) (hupper : n < 65536) : int32.Opposable n := by
  refine ⟨(inRange_iff_of_signed rfl).mpr ?_, fun _ => ?_⟩ <;> simp [bits, width] <;> omega

/-- Promotion keeps integers, and leaves room for their opposites. -/
theorem Opposable.promoted (h : t.Opposable n) (hint : t.isFloat = false) :
    t.promoted.Opposable n := by
  obtain ⟨hrange, hleast⟩ := h
  cases t with
  | float32 | float64 => cases hint
  | int32 | int64 | uint32 | uint64 => exact ⟨hrange, hleast⟩
  | int8 | int16 =>
    obtain ⟨hlower, hupper⟩ := (inRange_iff_of_signed rfl).mp hrange
    simp [bits, width] at hlower hupper
    exact opposable_int32 (by omega) (by omega)
  | uint8 | uint16 =>
    obtain ⟨hlower, hupper⟩ := (inRange_iff_of_unsigned rfl).mp hrange
    simp [bits, width] at hlower hupper
    exact opposable_int32 (by omega) (by omega)

/-- Opposites in a signed type. -/
theorem Opposable.inRange_neg (h : t.Opposable n) (hsigned : t.isSigned) : t.InRange (-n) := by
  obtain ⟨hrange, hleast⟩ := h
  have hleast := hleast hsigned
  rw [inRange_iff_of_signed hsigned] at hrange ⊢
  omega

/-- The opposite of an integer whose promoted type is signed. -/
theorem opposite_of_signed (h : t.Opposable n) (hint : t.isFloat = false)
    (hsigned : t.promoted.isSigned) : t.opposite n = -n :=
  (h.promoted hint).inRange_neg hsigned

/-- The opposite of an integer other than zero whose promoted type is unsigned. -/
theorem opposite_of_unsigned (h : t.Opposable n) (hunsigned : t.promoted.isSigned = false)
    (hne : n ≠ 0) : t.opposite n = (Nat.pow 2 t.bits : Nat) - n := by
  have hint : t.isFloat = false := by cases t <;> first | rfl | cases hunsigned
  obtain ⟨hlower, hupper⟩ := (inRange_iff_of_unsigned hunsigned).mp (h.promoted hint).1
  rw [bits_promoted_of_unsigned hunsigned] at hupper
  rw [opposite, wrap, if_neg (by simp [hunsigned]), bits_promoted_of_unsigned hunsigned,
    ← Int.add_emod_right]
  exact (Int.emod_eq_of_lt (by omega) (by omega)).trans (by omega)

/-- Zero is its own opposite. -/
@[simp] theorem opposite_zero (t : ElementType) : t.opposite 0 = 0 := by cases t <;> rfl

end ElementType

namespace Arithmetic

/-- Numbers have types in kernels, and `number` says what they are. Operands are promoted when they
are loaded. An opposite is computed in the promoted type, where it has to be in range if the type is
signed. An integer that is subtracted from a double is converted to a double first, and so is an
integer that is stored into a vector of doubles. -/
structure Promotes {V : Type} (A : Arithmetic V) (number : ElementType → Scalar → V) : Prop where
  load : ∀ t x, A.load t x = number t.promoted x
  neg : ∀ t n, t.isFloat = false → t.promoted = t → t.InRange n → (t.isSigned → t.InRange (-n)) →
    A.unary .neg (number t (.int n)) = number t (.int (t.wrap (-n)))
  sub : ∀ a t n, t.isFloat = false →
    A.binary .sub (number .float64 (.float a)) (number t (.int n)) =
      number .float64 (.float (a - Float.ofInt n))
  storeInteger : ∀ t n, t.isFloat = false →
    A.store .float64 (number t (.int n)) = .float (Float.ofInt n)
  storeDouble : ∀ a, A.store .float64 (number .float64 (.float a)) = .float a

namespace Typed

/-- The type in which two promoted operands are computed with. -/
def common (s t : ElementType) : ElementType :=
  if s = .float64 ∨ t = .float64 then .float64
  else if s = .float32 ∨ t = .float32 then .float32
  else if s = .uint64 ∨ t = .uint64 then .uint64
  else if s = .int64 ∨ t = .int64 then .int64
  else if s = .uint32 ∨ t = .uint32 then .uint32
  else .int32

/-- The type of a result. The places of a shift do not count. -/
def result (op : BinaryOp) (s t : ElementType) : ElementType :=
  match op with
  | .lshift | .rshift => s
  | _ => common s t

/-- Signs and complement, in the type of the operand. -/
def unary (op : UnaryOp) (v : ElementType × Scalar) : ElementType × Scalar :=
  (v.1, v.1.convert (match v.2 with
    | .int n => .int (op.ofInt n)
    | .float x => .float ((op.ofFloat? x).getD (0 / 0))))

/-- Operators on integers of a type; quotients go toward zero. -/
def integer (op : BinaryOp) (a b : Int) : Int :=
  match op with
  | .add => a + b
  | .sub => a - b
  | .mul => a * b
  | .div => a.tdiv b
  | .mod => a.tmod b
  | .and => (BitVec.ofInt 64 a &&& BitVec.ofInt 64 b).toInt
  | .or => (BitVec.ofInt 64 a ||| BitVec.ofInt 64 b).toInt
  | .xor => (BitVec.ofInt 64 a ^^^ BitVec.ofInt 64 b).toInt
  | .lshift => a * Nat.pow 2 b.toNat
  | .rshift => a.fdiv (Nat.pow 2 b.toNat)

/-- Operators, in the type that both operands are converted to. -/
def binary (op : BinaryOp) (v w : ElementType × Scalar) : ElementType × Scalar :=
  let t := result op v.1 w.1
  (t, t.convert (match t.convert v.2, t.convert w.2 with
    | .int a, .int b => .int (integer op a b)
    | a, b => .float (Wide.double op a.toFloat b.toFloat)))

end Typed

/-- Arithmetic on numbers with their types. Functions take and return doubles. -/
def typed : Arithmetic (ElementType × Scalar) where
  load t x := (t.promoted, x)
  unary := Typed.unary
  binary := Typed.binary
  call f args := (.float64, Wide.call f (args.map (·.2)))
  unclear _ _ args := (.float64, Wide.sum (args.map (·.2)))
  unread _ args := (.float64, Wide.sum (args.map (·.2)))
  store t v := t.convert v.2

theorem typed_promotes : typed.Promotes Prod.mk where
  load _ _ := rfl
  neg t n hint _ _ _ := by
    have hne : t ≠ .float32 := by
      rintro rfl
      cases hint
    simp [typed, Typed.unary, ElementType.convert, hne, hint, UnaryOp.ofInt]
  sub a t n _ := by
    simp [typed, Typed.binary, Typed.result, Typed.common, ElementType.convert, ElementType.isFloat,
      ElementType.round, Wide.double, Scalar.toFloat]
  storeInteger _ _ _ := rfl
  storeDouble _ := rfl

end Arithmetic

end DistributedVector
