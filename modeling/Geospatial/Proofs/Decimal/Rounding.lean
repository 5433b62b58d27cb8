import Geospatial.Decimal.SignedNumeral
import Geospatial.Proofs.Binary.Operations

/-!
# Reading a numeral rounds it

The double that a numeral is read as is the one that its number rounds to
(`SignedNumeral.roundsTo_toFloat`), so it is the nearest. Reading takes a product or a quotient of
the digits and a power of ten, either of which is rounded once. Exponents beyond all doubles are
settled beforehand, as infinity or as zero, and the number would have been rounded to just that.
-/

namespace Geospatial.Decimal

open Binary
open Float.Model (Format UnpackedFloat totalExponent)
open Float.Model.UnpackedFloat

/-- The number that a numeral tells. -/
noncomputable def Numeral.value (n : Numeral) : ℝ :=
  n.digits * 10 ^ n.exponent

variable {d : ℕ} {k : ℤ} {a : Float}

theorem pow_ten_pos (k : ℤ) : (0 : ℝ) < 10 ^ k :=
  zpow_pos (by norm_num) k

/-- An exponent beyond all doubles makes a number beyond them. -/
theorem two_pow_le_of_exponent_gt (hd : d ≠ 0) (hk : 2048 < k) :
    (2 : ℝ) ^ (1024 : ℤ) ≤ d * 10 ^ k := by
  have hdigits : (1 : ℝ) ≤ d := mod_cast Nat.one_le_iff_ne_zero.mpr hd
  calc (2 : ℝ) ^ (1024 : ℤ)
    _ ≤ 2 ^ k := zpow_le_zpow_right₀ one_le_two (by omega)
    _ ≤ 10 ^ k := by
      obtain ⟨n, rfl⟩ := Int.eq_ofNat_of_zero_le (by omega : 0 ≤ k)
      rw [zpow_natCast, zpow_natCast]
      exact pow_le_pow_left₀ zero_le_two (by norm_num) n
    _ ≤ d * 10 ^ k := le_mul_of_one_le_left (pow_ten_pos k).le hdigits

/-- Below this exponent every numeral is short of half the least double. -/
theorem lt_two_pow_of_exponent_lt (hk : k < -(2048 + d.log2)) :
    d * (10 : ℝ) ^ k < 2 ^ (-1075 : ℤ) := by
  have hdigits : (d : ℝ) < 2 ^ ((d.log2 : ℤ) + 1) := mod_cast Nat.lt_log2_self
  calc d * (10 : ℝ) ^ k
    _ ≤ d * 2 ^ k := by
      obtain ⟨n, rfl⟩ := Int.exists_eq_neg_ofNat (by omega : k ≤ 0)
      rw [zpow_neg, zpow_neg, zpow_natCast, zpow_natCast]
      gcongr
      norm_num
    _ < 2 ^ ((d.log2 : ℤ) + 1) * 2 ^ k := by gcongr
    _ = 2 ^ ((d.log2 : ℤ) + 1 + k) := (zpow_add₀ two_ne_zero _ _).symm
    _ ≤ 2 ^ (-1075 : ℤ) := zpow_le_zpow_right₀ one_le_two (by omega)

/-- A product with a power of ten, of digits that have been made enough. -/
theorem roundsTo_mul_pow_ten {n : ℕ} (hd : 0 < d <<< 53) (hn : 0 < 10 ^ n)
    (h : Packs a (mul .binary64 (.finite .positive (d <<< 53) (-53) hd)
      (.finite .positive (10 ^ n) 0 hn))) : RoundsTo (d * 10 ^ n) a := by
  have hdigits : 2 ^ 53 ≤ d <<< 53 * 10 ^ n := by
    rw [Nat.shiftLeft_eq] at hd ⊢
    have hpos : 0 < d := Nat.pos_of_mul_pos_right hd
    calc 2 ^ 53
      _ ≤ d * 2 ^ 53 := Nat.le_mul_of_pos_left _ hpos
      _ ≤ d * 2 ^ 53 * 10 ^ n := Nat.le_mul_of_pos_right _ hn
  have hlog : 53 ≤ (d <<< 53 * 10 ^ n).log2 := (Nat.le_log2 (by omega)).mpr hdigits
  have hexponent : (-53 + 0 : ℤ) ≤
      Format.binary64.targetExponent (totalExponent (d <<< 53 * 10 ^ n) (-53 + 0)) := by
    have hbits : Format.binary64.mantissaBitsWithoutImplicit = 52 := rfl
    unfold Format.targetExponent totalExponent Format.mantissaBits
    omega
  have hproduct := roundsTo_mul_finite hd hn hexponent h
  have hsize : dyadic (d <<< 53) (-53) = d := by
    rw [Nat.shiftLeft_eq, ← dyadic_natCast d]
    exact dyadic_mul_two_pow d 53 0
  rwa [onSide, onSide, hsize, dyadic_natCast, Nat.cast_pow, Nat.cast_ofNat] at hproduct

/-- A numeral with decimals is one division, which is rounded correctly. -/
theorem roundsTo_div_pow_ten {n : ℕ} (hd : 0 < d) (hn : 0 < 10 ^ n)
    (h : Packs a (div .binary64 (.finite .positive d 0 hd) (.finite .positive (10 ^ n) 0 hn))) :
    RoundsTo (d / 10 ^ n) a := by
  have hquotient := roundsTo_div_finite hd hn h
  rwa [onSide, onSide, dyadic_natCast, dyadic_natCast, Nat.cast_pow, Nat.cast_ofNat] at hquotient

/-- **Digits and an exponent of ten are rounded once.** -/
theorem roundsTo_ofScientific (h : Packs a (ofScientific .binary64 d k)) :
    RoundsTo (d * 10 ^ k) a := by
  unfold ofScientific at h
  split at h
  next hd =>
    rw [hd, Nat.cast_zero, zero_mul]
    exact roundsTo_zero h
  next hd =>
    have hpos : 0 < d := Nat.pos_of_ne_zero hd
    have hsize : 0 < d * (10 : ℝ) ^ k := mul_pos (mod_cast hpos) (pow_ten_pos k)
    split at h
    next hover => exact roundsTo_infinity (two_pow_le_of_exponent_gt hd hover) h
    next =>
      split at h
      next hunder => exact roundsTo_zero_of_lt hsize (lt_two_pow_of_exponent_lt hunder) h
      next =>
        split at h
        next hnonneg =>
          obtain ⟨n, rfl⟩ := Int.eq_ofNat_of_zero_le hnonneg
          rw [zpow_natCast]
          exact roundsTo_mul_pow_ten _ _ h
        next hneg =>
          obtain ⟨n, rfl⟩ := Int.exists_eq_neg_ofNat (by omega : k ≤ 0)
          rw [zpow_neg, zpow_natCast, ← div_eq_mul_inv]
          simp only [neg_neg] at h
          exact roundsTo_div_pow_ten _ _ h

namespace SignedNumeral

/-- The number that a numeral with a sign tells. -/
noncomputable def value (n : SignedNumeral) : ℝ :=
  if n.negative then -n.numeral.value else n.numeral.value

/-- **The double that a numeral is read as is the one that its number rounds to.** -/
theorem roundsTo_toFloat (n : SignedNumeral) : RoundsTo n.value n.toFloat := by
  have hmagnitude : RoundsTo n.numeral.value
      (.ofModel (.ofScientific n.numeral.digits n.numeral.exponent)) :=
    roundsTo_ofScientific rfl
  unfold value toFloat
  split
  · exact hmagnitude.neg
  · exact hmagnitude

end SignedNumeral

end Geospatial.Decimal
