import Geospatial.Proofs.Binary.Positivity
import Geospatial.Proofs.Binary.Words

/-!
# Infinities, zeros and undefined values

What the operations on doubles give at the values where no rounding is involved. A quotient by zero
is an infinity, which absorbs whatever finite number is added to it and whatever factor is not zero,
and turns a quotient into zero; an infinity times zero is undefined, and stays so.

The signs play no part. A double is asked whether it is finite, an infinity, equal to zero or a
number, and each operation is told by what it makes of the unpacked values (`unpack_add`,
`unpack_sub`, `unpack_mul`, `unpack_div`).
-/

namespace Geospatial.Binary

open Float.Model (Format UnpackedFloat totalExponent)
open Float.Model.UnpackedFloat

variable {a b : Float}

/-! ### Operations on unpacked values -/

/-- The digits of a sum are those that the exact one is packed to; so it is for each operation
below. -/
theorem unpack_add (a b : Float) : (a + b).toModel.unpack = unpack .binary64
    (pack .binary64 (add .binary64 a.toModel.unpack b.toModel.unpack)) := rfl

theorem unpack_sub (a b : Float) : (a - b).toModel.unpack = unpack .binary64
    (pack .binary64 (sub .binary64 a.toModel.unpack b.toModel.unpack)) := rfl

theorem unpack_mul (a b : Float) : (a * b).toModel.unpack = unpack .binary64
    (pack .binary64 (mul .binary64 a.toModel.unpack b.toModel.unpack)) := rfl

theorem unpack_div (a b : Float) : (a / b).toModel.unpack = unpack .binary64
    (pack .binary64 (div .binary64 a.toModel.unpack b.toModel.unpack)) := rfl

/-! ### Kinds of doubles -/

theorem isInf_iff : a.isInf = true ↔ ∃ s, a.toModel.unpack = .infinity s := by
  show a.toModel.unpack.isInf = true ↔ _
  rcases a.toModel.unpack with s | - | s | ⟨s, m, e, hm⟩ <;> simp [UnpackedFloat.isInf]

/-- Both zeros equal zero. -/
theorem beq_zero_iff : (a == 0.0) = true ↔ ∃ s, a.toModel.unpack = .zero s := by
  refine ⟨fun h ↦ ?_, fun ⟨_, h⟩ ↦ beq_zero_of_unpack h⟩
  obtain ⟨x, y, hx, hy, rfl⟩ := beq_iff_rank.mp h
  rcases eq_or_zeros_of_rank (hx.trans hy.symm) with heq | ⟨s, -, hs, -⟩
  · exact ⟨.positive, heq⟩
  · exact ⟨s, hs⟩

/-- Finite and not zero. -/
def Regular (a : Float) : Prop :=
  a.isFinite = true ∧ (a == 0.0) = false

instance (a : Float) : Decidable (Regular a) :=
  inferInstanceAs (Decidable (_ ∧ _))

/-- A regular double has a mantissa and an exponent. -/
theorem Regular.exists_unpack (ha : Regular a) :
    ∃ s m e hm, a.toModel.unpack = .finite s m e hm := by
  obtain ⟨ha, hne⟩ := ha
  rw [← Bool.not_eq_true, beq_zero_iff] at hne
  have hfinite : a.toModel.unpack.isFinite = true := ha
  cases hunpack : a.toModel.unpack with
  | notANumber | infinity =>
    rw [hunpack] at hfinite
    cases hfinite
  | zero s => exact absurd ⟨s, hunpack⟩ hne
  | finite s m e hm => exact ⟨s, m, e, hm, rfl⟩

theorem not_isNumber_iff : ¬Ordinate.IsNumber a ↔ a.toModel.unpack = .notANumber := by
  rw [isNumber_iff, Bool.not_eq_false]
  exact ⟨eq_notANumber, fun h ↦ congrArg UnpackedFloat.isNaN h⟩

theorem isNaN_of_isFinite (ha : a.isFinite = true) : a.isNaN = false := by
  have hfinite : a.toModel.unpack.isFinite = true := ha
  show a.toModel.unpack.isNaN = false
  cases hvalue : a.toModel.unpack with
  | notANumber =>
    rw [hvalue] at hfinite
    cases hfinite
  | infinity | zero | finite => rfl

theorem isInf_of_isFinite (ha : a.isFinite = true) : a.isInf = false := by
  revert ha
  show a.toModel.unpack.isFinite = true → a.toModel.unpack.isInf = false
  cases a.toModel.unpack <;> simp [UnpackedFloat.isFinite, UnpackedFloat.isInf]

/-- A number that is not finite is an infinity. -/
theorem isInf_of_not_isFinite (ha : Ordinate.IsNumber a) (h : ¬a.isFinite = true) :
    a.isInf = true := by
  have hnumber : a.toModel.unpack.isNaN = false := isNumber_iff.mp ha
  have hinfinite : ¬a.toModel.unpack.isFinite = true := h
  show a.toModel.unpack.isInf = true
  cases hvalue : a.toModel.unpack with
  | infinity => rfl
  | notANumber =>
    rw [hvalue] at hnumber
    cases hnumber
  | zero | finite =>
    rw [hvalue] at hinfinite
    exact absurd rfl hinfinite

/-! ### Infinities -/

/-- A regular value divided by a zero is infinite. -/
theorem isInf_div_zero (ha : Regular a) (hb : (b == 0.0) = true) : (a / b).isInf = true := by
  obtain ⟨s, m, e, hm, ha⟩ := ha.exists_unpack
  obtain ⟨t, hb⟩ := beq_zero_iff.mp hb
  refine isInf_iff.mpr ⟨s / t, ?_⟩
  rw [unpack_div, ha, hb]
  exact unpack_packedInfinity _

/-- What is finite does not change an infinite sum. -/
theorem infinity_add (spec : Format) (s : Sign) {f : UnpackedFloat} (hf : f.isFinite = true) :
    add spec (.infinity s) f = .infinity s := by
  cases f with
  | notANumber | infinity => cases hf
  | zero | finite => rfl

theorem isInf_add (ha : a.isInf = true) (hb : b.isFinite = true) : (a + b).isInf = true := by
  obtain ⟨s, ha⟩ := isInf_iff.mp ha
  refine isInf_iff.mpr ⟨s, ?_⟩
  rw [unpack_add, ha, infinity_add _ _ hb]
  exact unpack_packedInfinity _

theorem isInf_sub (ha : a.isInf = true) (hb : b.isFinite = true) : (a - b).isInf = true := by
  obtain ⟨s, ha⟩ := isInf_iff.mp ha
  refine isInf_iff.mpr ⟨s, ?_⟩
  rw [unpack_sub, ha, sub_eq_add_neg, infinity_add _ _ (isFinite_neg hb)]
  exact unpack_packedInfinity _

theorem isInf_mul (ha : Regular a) (hb : b.isInf = true) :
    (a * b).isInf = true := by
  obtain ⟨s, m, e, hm, ha⟩ := ha.exists_unpack
  obtain ⟨t, hb⟩ := isInf_iff.mp hb
  refine isInf_iff.mpr ⟨s * t, ?_⟩
  rw [unpack_mul, ha, hb]
  exact unpack_packedInfinity _

theorem isInf_div (ha : a.isInf = true) (hb : Regular b) : (a / b).isInf = true := by
  obtain ⟨s, ha⟩ := isInf_iff.mp ha
  obtain ⟨t, m, e, hm, hb⟩ := hb.exists_unpack
  refine isInf_iff.mpr ⟨s / t, ?_⟩
  rw [unpack_div, ha, hb]
  exact unpack_packedInfinity _

/-! ### Zeros -/

theorem beq_zero_div_inf (ha : Regular a) (hb : b.isInf = true) : (a / b == 0.0) = true := by
  obtain ⟨s, m, e, hm, ha⟩ := ha.exists_unpack
  obtain ⟨t, hb⟩ := isInf_iff.mp hb
  refine beq_zero_iff.mpr ⟨s / t, ?_⟩
  rw [unpack_div, ha, hb]
  exact unpack_packedZero _

theorem beq_zero_zero_div (ha : (a == 0.0) = true) (hb : Regular b) :
    (a / b == 0.0) = true := by
  obtain ⟨s, ha⟩ := beq_zero_iff.mp ha
  obtain ⟨t, n, f, hn, hb⟩ := hb.exists_unpack
  refine beq_zero_iff.mpr ⟨s / t, ?_⟩
  rw [unpack_div, ha, hb]
  exact unpack_packedZero _

/-- A zero added changes no number but for the sign of a zero. -/
theorem beq_add_zero (ha : Ordinate.IsNumber a) (hb : (b == 0.0) = true) :
    (a + b == a) = true := by
  obtain ⟨t, hb⟩ := beq_zero_iff.mp hb
  have hrepresentable := representable_double a
  have hrank : rankOf (a + b) = rankOf a := by
    rw [rankOf, rankOf, unpack_add, hb]
    cases hvalue : a.toModel.unpack with
    | notANumber => exact absurd ha (not_isNumber_iff.mpr hvalue)
    | infinity => exact congrArg rank (unpack_packedInfinity _)
    | zero s =>
      have hsum : ∃ r, add .binary64 (.zero s) (.zero t) = .zero r := by
        cases s <;> cases t <;> exact ⟨_, rfl⟩
      -- the sign of the sum of two zeros depends on both, and does not matter
      obtain ⟨r, hr⟩ := hsum
      rw [hr, pack, unpack_packedZero]
      rfl
    | finite =>
      rw [hvalue] at hrepresentable
      exact congrArg rank (unpack_pack hrepresentable)
  obtain ⟨x, -, hx, -, -⟩ := le_iff_rank.mp ha
  exact beq_iff_rank.mpr ⟨x, x, hrank.trans hx, hx, rfl⟩

/-- A finite value less itself is the positive zero. -/
theorem sub_unpacked_self (spec : Format) {f : UnpackedFloat} (hf : f.isFinite = true) :
    sub spec f f = .zero .positive := by
  cases f with
  | notANumber | infinity => cases hf
  | zero s => cases s <;> rfl
  | finite s m e hm =>
    dsimp only [sub]
    rw [Int.sub_self]
    rfl

/-- A finite double less itself is zero. -/
theorem beq_zero_sub_self (ha : a.isFinite = true) : (a - a == 0.0) = true := by
  refine beq_zero_iff.mpr ⟨.positive, ?_⟩
  rw [unpack_sub, sub_unpacked_self _ ha]
  exact unpack_packedZero _

/-! ### One -/

/-- A quotient by one is told with some digits more, and is found again. -/
theorem div_unpacked_one {spec : Format} (s : Sign) {m : ℕ} {e : ℤ} (hm : 0 < m)
    (h : Canonical spec m e) (k : ℕ) :
    div spec (.finite s m e hm) (.finite .positive (2 ^ k) (-k) (Nat.two_pow_pos k)) =
      .finite s m e hm := by
  have htotal : totalExponent (2 ^ k) (-k) = 1 := by
    rw [totalExponent, Nat.log2_two_pow]
    omega
  -- dividing by one appends zeros, which rounding cuts off again
  obtain ⟨j, hj⟩ : ∃ j : ℕ, min (e - -k) (spec.targetExponent (totalExponent m e - 1)) = e - j := by
    refine ⟨(e - spec.targetExponent (totalExponent m e - 1)).toNat, ?_⟩
    unfold Canonical Format.targetExponent at *
    omega
  have hshift : (e - -k - (e - j)).toNat = k + j := by omega
  have hsign : s / Sign.positive = s := by
    cases s <;> rfl
  have hmantissa : m <<< (k + j) = 2 ^ k * (m * 2 ^ j) := by
    rw [Nat.shiftLeft_eq, Nat.pow_add, Nat.mul_left_comm]
  simp only [div, divCore, htotal, hj, hshift, hsign, hmantissa, Nat.mul_mod_right,
    Nat.mul_div_cancel_left _ (Nat.two_pow_pos k)]
  exact roundWithAccuracy_mul s hm h j

/-- A finite double divided by one is itself. -/
theorem div_one (ha : a.isFinite = true) : a / 1.0 = a := by
  have hrepresentable := representable_double a
  have hone : (1.0 : Float).toModel.unpack = .finite .positive (2 ^ 52) (-52) (by decide) := rfl
  have hfinite : a.toModel.unpack.isFinite = true := ha
  have hunpack : (a / 1.0).toModel.unpack = a.toModel.unpack := by
    rw [unpack_div, hone]
    cases hvalue : a.toModel.unpack with
    | notANumber | infinity =>
      rw [hvalue] at hfinite
      cases hfinite
    | zero s => cases s <;> exact unpack_packedZero _
    | finite s m e hm =>
      rw [hvalue] at hrepresentable
      exact (congrArg (unpack .binary64 ∘ pack .binary64)
        (div_unpacked_one s hm hrepresentable.1 52)).trans (unpack_pack hrepresentable)
  exact (eq_of_unpack_eq (isNaN_of_isFinite ha) hunpack.symm).symm

/-! ### Undefined values -/

/-- **Infinity times zero is no number**, of whatever signs. -/
theorem not_isNumber_inf_mul_zero (ha : a.isInf = true) (hb : (b == 0.0) = true) :
    ¬Ordinate.IsNumber (a * b) := by
  obtain ⟨s, ha⟩ := isInf_iff.mp ha
  obtain ⟨t, hb⟩ := beq_zero_iff.mp hb
  rw [not_isNumber_iff, unpack_mul, ha, hb]
  exact unpack_packedNaN _

theorem not_isNumber_mul (ha : ¬Ordinate.IsNumber a) (b : Float) : ¬Ordinate.IsNumber (a * b) := by
  rw [not_isNumber_iff] at ha ⊢
  rw [unpack_mul, ha]
  exact unpack_packedNaN _

theorem not_isNumber_div (ha : ¬Ordinate.IsNumber a) (b : Float) : ¬Ordinate.IsNumber (a / b) := by
  rw [not_isNumber_iff] at ha ⊢
  rw [unpack_div, ha]
  exact unpack_packedNaN _

end Geospatial.Binary
