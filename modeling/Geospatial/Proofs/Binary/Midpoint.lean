import Geospatial.Proofs.Binary.Ordering

/-!
# Where sums overflow, and midpoints

A number is rounded to a finite double when its size is below `overflowThreshold`, half a unit above
the greatest double, and to an infinity otherwise (`RoundsTo.isFinite_iff`). The midpoint of two
doubles is half of their sum. It is infinite when the exact sum is not below the threshold, and
otherwise it lies between the two (`midpoint_between`).

**Rounding twice does no harm.** Twice a double is again the value of a double
(`exists_valueOf_twice`), so a sum between twice the one and twice the other is still there after it
has been rounded (`two_mul_le_of_roundsTo`). Half of it lies between the two doubles, and so does
what that is rounded to.
-/

namespace Geospatial.Binary

open Float.Model (Format UnpackedFloat totalExponent)
open Float.Model.UnpackedFloat
open Ordinate (IsNumber)

variable {a b : Float} {x y z w : ℝ}

/-- A value that doubles can have is the value of one. -/
theorem exists_valueOf_eq {g : UnpackedFloat} (hg : Representable .binary64 g) :
    ∃ d : Float, valueOf d = value g := by
  refine ⟨Float.ofModel (.pack g), ?_⟩
  show value (unpack .binary64 (pack .binary64 g)) = value g
  rw [unpack_pack hg]

/-! ### The end of the range -/

/-- The unit of the greatest doubles. -/
noncomputable def lastUnit : ℝ :=
  dyadic 1 971

/-- What the greatest double stands for. -/
noncomputable def greatestSize : ℝ :=
  dyadic (2 ^ 53 - 1) 971

/-- The least number that is rounded to infinity, halfway between the greatest double and the power
of two beyond it. -/
noncomputable def overflowThreshold : ℝ :=
  dyadic (2 ^ 54 - 1) 970

theorem lastUnit_pos : 0 < lastUnit :=
  dyadic_pos Nat.one_pos 971

/-- The spacing of the doubles of greatest exponent. -/
theorem lastUnit_eq : lastUnit = 2 ^ (971 : ℤ) :=
  dyadic_one 971

theorem dyadic_eq_mul_lastUnit (m : ℕ) : dyadic m 971 = m * lastUnit := by
  rw [lastUnit_eq, dyadic]

/-- The greatest double has all its digits set. -/
theorem greatestSize_div_lastUnit : greatestSize / lastUnit = 2 ^ 53 - 1 := by
  rw [greatestSize, dyadic_eq_mul_lastUnit, mul_div_cancel_right₀ _ lastUnit_pos.ne']
  norm_num

/-- The threshold is half a spacing above it. -/
theorem threshold_div_lastUnit : overflowThreshold / lastUnit = 2 ^ 53 - 1 / 2 := by
  have htwice : lastUnit = 2 * 2 ^ (970 : ℤ) := by
    rw [lastUnit_eq, ← zpow_one_add₀ two_ne_zero]
    rfl
  have hunit : (0 : ℝ) < 2 ^ (970 : ℤ) := zpow_pos two_pos _
  rw [htwice, overflowThreshold, dyadic, mul_div_mul_right _ _ hunit.ne']
  norm_num

/-- The end of the range, in the last unit. -/
theorem dyadic_end_div_lastUnit : dyadic 1 1024 / lastUnit = 2 ^ 53 := by
  rw [div_eq_iff lastUnit_pos.ne', lastUnit_eq, dyadic_one, ← zpow_natCast,
    ← zpow_add₀ two_ne_zero]
  rfl

theorem threshold_lt : overflowThreshold < dyadic 1 1024 := by
  rw [← div_lt_div_iff_of_pos_right lastUnit_pos, threshold_div_lastUnit, dyadic_end_div_lastUnit]
  norm_num

theorem greatestSize_lt : greatestSize < overflowThreshold := by
  rw [← div_lt_div_iff_of_pos_right lastUnit_pos, greatestSize_div_lastUnit, threshold_div_lastUnit]
  norm_num

/-- Numbers that take the last unit are rounded to a whole number of it, or to infinity where that
number has a digit too many. -/
theorem rounds_last {r : ℕ} (hlower : 2 ^ 52 ≤ x / lastUnit) (hupper : x / lastUnit < 2 ^ 53)
    (hnearest : IsNearest (x / lastUnit) r) :
    Rounds .binary64 x (if r < 2 ^ 53 then ((r * lastUnit : ℝ) : EReal) else ⊤) := by
  have hpos : 0 < x :=
    (div_pos_iff_of_pos_right lastUnit_pos).mp (lt_of_lt_of_le (by positivity) hlower)
  have hrounds : Rounds .binary64 x (capped .binary64 (r * lastUnit)) := by
    rw [lastUnit_eq] at hlower hupper hnearest ⊢
    exact .finite hpos (hasUnit_of_bounds hpos (by decide) (fun _ ↦ hlower) hupper) hnearest
  have hrange : r < 2 ^ 53 ↔ r * lastUnit < dyadic 1 1024 := by
    rw [← lt_div_iff₀ lastUnit_pos, dyadic_end_div_lastUnit]
    exact_mod_cast Iff.rfl
  rw [if_congr hrange rfl rfl]
  exact hrounds

/-- A sum at the threshold lies halfway and is rounded to the even side, which is the infinite one.
-/
theorem roundsTo_infinity_of_threshold : RoundsTo overflowThreshold Ordinate.infinity := by
  have hnearest : IsNearest (overflowThreshold / lastUnit) (2 ^ 53) := by
    rw [threshold_div_lastUnit]
    exact ⟨by norm_num, by norm_num, fun _ ↦ ⟨2 ^ 52, rfl⟩⟩
  refine ⟨.positive, overflowThreshold, ⊤, rfl, rfl, ?_⟩
  refine rounds_last ?_ ?_ hnearest
  all_goals
    rw [threshold_div_lastUnit]
    norm_num

/-- What lies between the greatest double and the threshold is rounded to that double. -/
theorem rounds_greatestSize (hlower : greatestSize ≤ x) (hupper : x < overflowThreshold) :
    Rounds .binary64 x greatestSize := by
  rw [← div_le_div_iff_of_pos_right lastUnit_pos, greatestSize_div_lastUnit] at hlower
  rw [← div_lt_div_iff_of_pos_right lastUnit_pos, threshold_div_lastUnit] at hupper
  have hrounds : Rounds .binary64 x
      (if 2 ^ 53 - 1 < 2 ^ 53 then (((2 ^ 53 - 1 : ℕ) * lastUnit : ℝ) : EReal) else ⊤) := by
    refine rounds_last ?_ ?_ (isNearest_of_lt ?_ ?_)
    all_goals
      norm_num at hlower hupper ⊢
      linarith
  rwa [if_pos (by decide), ← dyadic_eq_mul_lastUnit] at hrounds

/-- Whatever is below the threshold is at most a number that is rounded to a finite double. -/
theorem exists_roundsTo_finite (h : x < overflowThreshold) :
    ∃ w g, x ≤ w ∧ RoundsTo w g ∧ g.isFinite = true := by
  have hcanonical : Canonical .binary64 (2 ^ 53 - 1) 971 :=
    (canonical_iff (by decide)).mpr (Or.inl ⟨by decide, by decide⟩)
  obtain ⟨g, hg⟩ := exists_valueOf_eq (g := .finite .positive (2 ^ 53 - 1) 971 (by decide))
    ⟨hcanonical, by decide⟩
  have hvalue : valueOf g = some (greatestSize : EReal) := hg
  have hrounds : Rounds .binary64 (max x greatestSize : ℝ) greatestSize :=
    rounds_greatestSize (le_max_right _ _) (max_lt h greatestSize_lt)
  exact ⟨max x greatestSize, g, le_max_left _ _, ⟨.positive, _, _, rfl, hvalue, hrounds⟩,
    isFinite_iff_valueOf.mpr ⟨_, hvalue⟩⟩

theorem isFinite_opposite (h : a.isFinite = true) : (-a).isFinite = true := by
  obtain ⟨x, hx⟩ := isFinite_iff_valueOf.mp h
  exact isFinite_iff_valueOf.mpr ⟨-x, valueOf_neg_coe hx⟩

/-- Rounding is monotone, so that all beyond the threshold is infinite as well. -/
theorem not_isFinite_of_threshold_le (h : RoundsTo x a) (hx : overflowThreshold ≤ x) :
    ¬a.isFinite = true := by
  intro ha
  have hover : Ordinate.infinity ≤ a := roundsTo_infinity_of_threshold.le h hx
  exact absurd (Ordinate.le_trans hover (between_greatest ha).2) (by decide +kernel)

/-- **A number below the threshold is rounded to a finite double,** and no other is. -/
theorem RoundsTo.isFinite_iff (h : RoundsTo x a) :
    a.isFinite = true ↔ |x| < overflowThreshold := by
  constructor
  · intro ha
    by_contra hover
    rcases le_abs.mp (not_lt.mp hover) with hx | hx
    · exact absurd ha (not_isFinite_of_threshold_le h hx)
    · exact absurd (isFinite_opposite ha) (not_isFinite_of_threshold_le h.neg hx)
  · intro hx
    obtain ⟨hlower, hupper⟩ := abs_lt.mp hx
    obtain ⟨w, g, hxw, hw, hg⟩ := exists_roundsTo_finite hupper
    obtain ⟨u, f, hxu, hu, hf⟩ := exists_roundsTo_finite (neg_lt.mp hlower)
    exact isFinite_of_between (isFinite_opposite hf) hg (hu.neg.le h (neg_le.mp hxu)) (h.le hw hxw)

/-! ### Twice a double -/

/-- Doubling adds one to the exponent, or to the digits where the exponent cannot grow. -/
theorem Canonical.exists_twice {spec : Format} {m : ℕ} {e : ℤ} (h : Canonical spec m e)
    (hm : 0 < m) : ∃ n f, 0 < n ∧ Canonical spec n f ∧ dyadic n f = 2 * dyadic m e := by
  rcases (canonical_iff hm).mp h with ⟨hdigits, hmin⟩ | ⟨hsmall, hleast⟩
  · refine ⟨m, e + 1, hm, (canonical_iff hm).mpr (Or.inl ⟨hdigits, by omega⟩), ?_⟩
    rw [dyadic, dyadic, zpow_add_one₀ two_ne_zero]
    ring
  · have hpos : 0 < 2 * m := by omega
    refine ⟨2 * m, e, hpos, (canonical_iff hpos).mpr ?_, by rw [dyadic, dyadic]; push_cast; ring⟩
    by_cases hfull : 2 * m < 2 ^ spec.mantissaBitsWithoutImplicit
    · exact Or.inr ⟨hfull, hleast⟩
    · have hdigits : (2 * m).log2 = spec.mantissaBitsWithoutImplicit :=
        (Nat.log2_eq_iff hpos.ne').mpr ⟨by omega, by rw [Nat.pow_succ]; omega⟩
      exact Or.inl ⟨hdigits, hleast.ge⟩

theorem mul_onSide (s : Sign) (x y : ℝ) : x * onSide s y = onSide s (x * y) := by
  cases s with
  | positive => rfl
  | negative => exact mul_neg x y

theorem abs_onSide (s : Sign) (h : 0 ≤ x) : |onSide s x| = x := by
  cases s with
  | positive => exact abs_of_nonneg h
  | negative => rw [onSide, abs_neg, abs_of_nonneg h]

/-- Twice a double is the value of a double, up to the end of the range. -/
theorem exists_valueOf_twice (hx : valueOf a = some (x : EReal))
    (hrange : |2 * x| < overflowThreshold) : ∃ d, valueOf d = some ((2 * x : ℝ) : EReal) := by
  have hrepresentable := representable_double a
  rcases value_eq_coe hx with ⟨s, -, rfl⟩ | ⟨s, m, e, hm, hf, rfl⟩
  · exact ⟨a, by rwa [mul_zero]⟩
  · rw [hf] at hrepresentable
    obtain ⟨n, f, hn, hcanonical, hsize⟩ := hrepresentable.1.exists_twice hm
    rw [mul_onSide, ← hsize] at hrange ⊢
    rw [abs_onSide s (dyadic_pos hn f).le] at hrange
    have hbelow : f + 52 ≤ 1023 :=
      (hcanonical.in_range_iff hn (by decide)).mpr (hrange.trans threshold_lt)
    obtain ⟨d, hd⟩ := exists_valueOf_eq (g := .finite s n f hn) ⟨hcanonical, hbelow⟩
    exact ⟨d, by rw [hd, value, coe_onSide]⟩

/-- **Rounding does not pass twice a double.** -/
theorem two_mul_le_of_roundsTo (hx : valueOf a = some (x : EReal)) (hw : RoundsTo w b)
    (hz : valueOf b = some (z : EReal)) (h : 2 * x ≤ w) : 2 * x ≤ z := by
  have hfinite : b.isFinite = true := isFinite_iff_valueOf.mpr ⟨z, hz⟩
  have hw' := hw.isFinite_iff.mp hfinite
  have hz' := (roundsTo_valueOf hz).isFinite_iff.mp hfinite
  rcases lt_or_ge |2 * x| overflowThreshold with hrange | hrange
  · obtain ⟨d, hd⟩ := exists_valueOf_twice hx hrange
    exact (le_iff_real_le hd hz).mp ((roundsTo_valueOf hd).le hw h)
  · -- twice the double is beyond the range, and not on the upper side
    rcases le_abs.mp hrange with hover | hunder
    · linarith [(abs_lt.mp hw').2]
    · linarith [(abs_lt.mp hz').1]

/-! ### Midpoints -/

theorem valueOf_two : valueOf 2.0 = some ((2 : ℝ) : EReal) := by
  have htwo : (2.0 : Float).toModel.unpack = .finite .positive (2 ^ 52) (-51) (by decide) := rfl
  have hsize : dyadic (2 ^ 52) (-51) = 2 := by
    rw [dyadic]
    norm_num
  rw [valueOf, htwo, value, signed_positive, hsize]

/-- The exact sum of two finite doubles is below the threshold. -/
def SumInRange (a b : Float) : Prop :=
  ∃ x y : ℝ, valueOf a = some (x : EReal) ∧ valueOf b = some (y : EReal) ∧
    |x + y| < overflowThreshold

/-- Sums are in range where they are finite as doubles. -/
theorem sumInRange_iff (ha : a.isFinite = true) (hb : b.isFinite = true) :
    SumInRange a b ↔ (a + b).isFinite = true := by
  constructor
  · rintro ⟨x, y, hx, hy, h⟩
    exact (roundsTo_add hx hy).isFinite_iff.mpr h
  · intro h
    obtain ⟨x, hx⟩ := isFinite_iff_valueOf.mp ha
    obtain ⟨y, hy⟩ := isFinite_iff_valueOf.mp hb
    exact ⟨x, y, hx, hy, (roundsTo_add hx hy).isFinite_iff.mp h⟩

/-- **The midpoint lies between the ends,** if their sum does not overflow. -/
theorem midpoint_between (hab : a ≤ b) (h : SumInRange a b) :
    a ≤ (a + b) / 2.0 ∧ (a + b) / 2.0 ≤ b := by
  obtain ⟨x, y, hx, hy, hsum⟩ := h
  have hround := roundsTo_add hx hy
  obtain ⟨z, hz⟩ := isFinite_iff_valueOf.mp (hround.isFinite_iff.mpr hsum)
  have hhalf := roundsTo_div hz valueOf_two two_ne_zero
  rw [le_iff_real_le hx hy] at hab
  have hlower : 2 * x ≤ z := two_mul_le_of_roundsTo hx hround hz (by linarith)
  have hupper : 2 * -y ≤ -z :=
    two_mul_le_of_roundsTo (valueOf_neg_coe hy) hround.neg (valueOf_neg_coe hz) (by linarith)
  exact ⟨(roundsTo_valueOf hx).le hhalf (by linarith), hhalf.le (roundsTo_valueOf hy) (by linarith)⟩

/-- **A sum that overflows takes the midpoint along.** -/
theorem isInf_midpoint (ha : a.isFinite = true) (hb : b.isFinite = true) (h : ¬SumInRange a b) :
    ((a + b) / 2.0).isInf = true := by
  rw [sumInRange_iff ha hb] at h
  exact isInf_div (isInf_of_not_isFinite (isNumber_add (isNumber_of_isFinite ha) hb) h) (by decide)

/-- **Halving comes too late for a sum that is out of range**, and never takes a finite one out of
it. -/
theorem isFinite_midpoint_iff (ha : a.isFinite = true) (hb : b.isFinite = true) (hab : a ≤ b) :
    ((a + b) / 2.0).isFinite = true ↔ SumInRange a b := by
  constructor
  · intro h
    by_contra hover
    have hinf := isInf_midpoint ha hb hover
    rw [isInf_of_isFinite h] at hinf
    cases hinf
  · intro h
    obtain ⟨hlower, hupper⟩ := midpoint_between hab h
    exact isFinite_of_between ha hb hlower hupper

end Geospatial.Binary
