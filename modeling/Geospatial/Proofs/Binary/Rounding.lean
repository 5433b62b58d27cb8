import Geospatial.Proofs.Binary.Nearest

/-!
# What becomes of a size

A positive number that is rounded to a format and packed becomes the nearest number of its unit, or
infinity where that is beyond the range. `Rounds` says so, together with zero and infinity, which
stay as they are, and says it without a word about bits. Greater sizes are rounded to greater ones
(`Rounds.mono`), on either side of zero (`Rounds.signed_mono`), and every size is rounded to one
(`Rounds.unique`).

**A size has one unit,** the one that the place of its first digit tells, and every positive number
has one (`exists_hasUnit`).
-/

namespace Geospatial.Binary

open Float.Model (Format UnpackedFloat totalExponent)
open Float.Model.UnpackedFloat

/-! ### Sizes -/

/-- A size, or infinity where it is beyond the range of the format. -/
noncomputable def capped (spec : Format) (x : ℝ) : EReal :=
  if x < dyadic 1 (spec.exponentBias + 1) then x else ⊤

/-- What is out of range is treated as infinite, which keeps the order. -/
theorem capped_mono {spec : Format} {x y : ℝ} (h : x ≤ y) : capped spec x ≤ capped spec y := by
  unfold capped
  split
  next =>
    split
    next => exact EReal.coe_le_coe_iff.mpr h
    next => exact le_top
  next hx => rw [if_neg fun hy ↦ hx (h.trans_lt hy)]

/-- The size is rounded to the other one: zero and infinity as they are, a number rounded to the
nearest number of its unit and cut off at the range. -/
inductive Rounds (spec : Format) : EReal → EReal → Prop
  | zero : Rounds spec 0 0
  | infinity : Rounds spec ⊤ ⊤
  | finite {x : ℝ} {t : ℤ} {r : ℕ} (hpos : 0 < x) (hunit : HasUnit spec x t)
      (hnearest : IsNearest (x / 2 ^ t) r) : Rounds spec x (capped spec (r * 2 ^ t))

variable {spec : Format} {a b a' b' : EReal}

theorem Rounds.nonneg (h : Rounds spec a b) : 0 ≤ a ∧ 0 ≤ b := by
  cases h with
  | zero => exact ⟨le_rfl, le_rfl⟩
  | infinity => exact ⟨le_top, le_top⟩
  | finite hpos =>
    refine ⟨EReal.coe_nonneg.mpr hpos.le, ?_⟩
    unfold capped
    split
    next => exact EReal.coe_nonneg.mpr (by positivity)
    next => exact le_top

/-- **Greater sizes are rounded to greater ones.** -/
theorem Rounds.mono (h : Rounds spec a b) (h' : Rounds spec a' b') (hle : a ≤ a') : b ≤ b' := by
  cases h with
  | zero => exact h'.nonneg.2
  | infinity =>
    cases h' with
    | zero => exact absurd hle (not_le.mpr EReal.zero_lt_top)
    | infinity => exact le_rfl
    | @finite x => exact absurd hle (not_le.mpr (EReal.coe_lt_top x))
  | finite hpos hunit hnearest =>
    cases h' with
    | zero => exact absurd hle (not_le.mpr (EReal.coe_pos.mpr hpos))
    | infinity => exact le_top
    | finite _ hunit' hnearest' =>
      -- the units may differ, so that the nearest values are compared as real numbers
      exact capped_mono
        (hunit.nearest_mono hnearest hunit' hnearest' (EReal.coe_le_coe_iff.mp hle))

/-- On either side of zero, rounding keeps the order. -/
theorem Rounds.signed_mono (h : Rounds spec a b) (h' : Rounds spec a' b') {s s' : Sign}
    (hle : signed s a ≤ signed s' a') : signed s b ≤ signed s' b' := by
  obtain ⟨ha, hb⟩ := h.nonneg
  obtain ⟨ha', hb'⟩ := h'.nonneg
  cases s with
  | positive =>
    cases s' with
    | positive => exact h.mono h' hle
    | negative =>
      -- only zeros are in order this way round, and they are rounded to zeros
      have hneg : a ≤ -a' := hle
      have hzero : a ≤ 0 := hneg.trans (EReal.neg_le_zero.mpr ha')
      have hzero' : a' ≤ 0 := EReal.neg_nonneg.mp (ha.trans hneg)
      exact (h.mono .zero hzero).trans (EReal.neg_nonneg.mpr (h'.mono .zero hzero'))
  | negative =>
    cases s' with
    | positive => exact (EReal.neg_le_zero.mpr hb).trans hb'
    | negative => exact EReal.neg_le_neg_iff.mpr (h'.mono h (EReal.neg_le_neg_iff.mp hle))

theorem Rounds.unique (h : Rounds spec a b) (h' : Rounds spec a b') : b = b' :=
  le_antisymm (h.mono h' le_rfl) (h'.mono h le_rfl)

/-- Every positive size has a unit, below the range that of the subnormal values. -/
theorem exists_hasUnit (spec : Format) {x : ℝ} (hx : 0 < x) : ∃ t, HasUnit spec x t := by
  refine ⟨_, Int.log 2 x + 1, ?_, Int.lt_zpow_succ_log_self one_lt_two x, rfl⟩
  rw [add_sub_cancel_right]
  exact Int.zpow_log_le_self one_lt_two hx

/-- The exponent is the one for numbers of a size if it is not below the least one and as many units
as the number takes can be told with the digits of the format, with all of them unless the exponent
is the least. -/
theorem hasUnit_of_bounds {x : ℝ} {t : ℤ} (hpos : 0 < x) (hmin : spec.minExponent ≤ t)
    (hlower : spec.minExponent < t → 2 ^ spec.mantissaBitsWithoutImplicit ≤ x / 2 ^ t)
    (hupper : x / 2 ^ t < 2 ^ spec.mantissaBits) : HasUnit spec x t := by
  have hunit : (0 : ℝ) < 2 ^ t := zpow_pos two_pos t
  obtain ⟨u, digits, hbelow, habove, rfl⟩ := exists_hasUnit spec hpos
  refine ⟨digits, hbelow, habove, ?_⟩
  have hbits : spec.mantissaBits = spec.mantissaBitsWithoutImplicit + 1 := Nat.add_comm ..
  have hmost : digits - 1 < spec.mantissaBits + t := by
    rw [div_lt_iff₀ hunit, ← zpow_natCast, ← zpow_add₀ two_ne_zero] at hupper
    exact (zpow_lt_zpow_iff_right₀ one_lt_two).mp (hbelow.trans_lt hupper)
  unfold Format.targetExponent
  rcases hmin.lt_or_eq with hlt | rfl
  · have hleast := hlower hlt
    rw [le_div_iff₀ hunit, ← zpow_natCast, ← zpow_add₀ two_ne_zero] at hleast
    have hfull : spec.mantissaBitsWithoutImplicit + t < digits :=
      (zpow_lt_zpow_iff_right₀ one_lt_two).mp (hleast.trans_lt habove)
    omega
  · omega

theorem capped_zero (t : ℤ) : capped spec (((0 : ℕ) : ℝ) * 2 ^ t) = 0 := by
  rw [Nat.cast_zero, zero_mul, capped, if_pos (dyadic_pos Nat.one_pos _), EReal.coe_zero]

/-! ### Packing -/

variable {n : ℕ} {f : ℤ}

/-- The range of a format in terms of sizes. -/
theorem Canonical.in_range_iff (h : Canonical spec n f) (hn : 0 < n)
    (hbias : 0 < spec.exponentBias) :
    f + spec.mantissaBitsWithoutImplicit ≤ spec.exponentBias ↔
      dyadic n f < dyadic 1 (spec.exponentBias + 1) := by
  rw [dyadic_one]
  have hmin := minExponent_add spec
  have hbits : spec.mantissaBits = spec.mantissaBitsWithoutImplicit + 1 := Nat.add_comm ..
  unfold Canonical Format.targetExponent at h
  constructor
  · intro hrange
    exact (dyadic_lt n f).trans_le (zpow_le_zpow_right₀ one_le_two (by omega))
  · intro hlt
    have hdigits : totalExponent n f - 1 < spec.exponentBias + 1 :=
      (zpow_lt_zpow_iff_right₀ one_lt_two).mp ((le_dyadic hn f).trans_lt hlt)
    omega

theorem value_packed_zero (spec : Format) (s : Sign) :
    value (unpack spec (pack spec (.zero s))) = some (signed s 0) := by
  rw [pack, unpack_packedZero, value]

theorem value_packed_infinity (spec : Format) (s : Sign) :
    value (unpack spec (pack spec (.infinity s))) = some (signed s ⊤) := by
  rw [pack, unpack_packedInfinity, value]

/-- What is packed is cut off at the range. -/
theorem value_packed (hbias : 0 < spec.exponentBias) (s : Sign) (hn : 0 < n)
    (h : Canonical spec n f) :
    value (unpack spec (pack spec (.finite s n f hn))) =
      some (signed s (capped spec (dyadic n f))) := by
  by_cases hrange : f + spec.mantissaBitsWithoutImplicit ≤ spec.exponentBias
  · have hrepresentable : Representable spec (.finite s n f hn) := ⟨h, hrange⟩
    rw [unpack_pack hrepresentable, capped, if_pos ((h.in_range_iff hn hbias).mp hrange)]
    rfl
  · have hover : ¬dyadic n f < dyadic 1 (spec.exponentBias + 1) :=
      mt (h.in_range_iff hn hbias).mpr hrange
    have hcount := two_pow_exponentBits spec
    rw [pack, if_pos (by omega), unpack_packedInfinity, capped, if_neg hover]
    rfl

/-- **What is rounded and packed has become the nearest size.** -/
theorem exists_rounds_packed (hbias : 0 < spec.exponentBias) (s : Sign) {x : ℝ} {t : ℤ} {r : ℕ}
    (hpos : 0 < x) (hunit : HasUnit spec x t) (hnearest : IsNearest (x / 2 ^ t) r)
    {g : UnpackedFloat}
    (hround : r = 0 ∧ g = .zero s ∨
      ∃ n f hn, g = .finite s n f hn ∧ Canonical spec n f ∧ dyadic n f = r * 2 ^ t) :
    ∃ v, value (unpack spec (pack spec g)) = some (signed s v) ∧ Rounds spec x v := by
  refine ⟨_, ?_, .finite hpos hunit hnearest⟩
  rcases hround with ⟨rfl, rfl⟩ | ⟨n, f, hn, rfl, hcanonical, hsize⟩
  · rw [capped_zero, value_packed_zero]
  · rw [value_packed hbias s hn hcanonical, hsize]

end Geospatial.Binary
