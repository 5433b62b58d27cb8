import Geospatial.Proofs.Binary.Operations

/-!
# Operations and order

Since an operation on finite doubles rounds the exact result, and rounding keeps the order, the
operations are as monotone on doubles as they are on the reals: sums and differences in each of
their terms, products in a factor where the other one is not negative. A result is thereby known to
be finite as soon as it lies between two doubles that are, and these can be computed.

**Strictness is lost but at the ends.** Results of distinct arguments may agree. What is known of a
strict comparison is that no double lies between two neighbours (`le_of_lt_of_rankOf`), that none is
beyond the greatest one (`between_greatest`), and that a difference of distinct doubles keeps its
sign (`sub_lt_zero`).
-/

namespace Geospatial.Binary

open Float.Model (Format UnpackedFloat totalExponent)
open Float.Model.UnpackedFloat
open Ordinate (IsNumber)

variable {a b c d : Float} {x y : ℝ}

/-! ### Finite doubles -/

theorem exists_valueOf (ha : IsNumber a) : ∃ u, valueOf a = some u := by
  rw [isNumber_iff] at ha
  have hnumber : a.toModel.unpack.isNaN = false := ha
  unfold valueOf
  cases hvalue : a.toModel.unpack with
  | notANumber =>
    rw [hvalue] at hnumber
    cases hnumber
  | infinity | zero | finite => exact ⟨_, rfl⟩

theorem isNumber_of_isFinite (ha : a.isFinite = true) : IsNumber a :=
  isNumber_iff.mpr (isNaN_of_isFinite ha)

/-- Between finite doubles there are only finite ones. -/
theorem isFinite_of_between (hb : b.isFinite = true) (hc : c.isFinite = true) (hba : b ≤ a)
    (hac : a ≤ c) : a.isFinite = true := by
  obtain ⟨u, hu⟩ := exists_valueOf (Ordinate.isNumber_right hba)
  obtain ⟨x, hx⟩ := isFinite_iff_valueOf.mp hb
  obtain ⟨y, hy⟩ := isFinite_iff_valueOf.mp hc
  rw [le_iff_valueOf_le hx hu] at hba
  rw [le_iff_valueOf_le hu hy] at hac
  refine isFinite_iff_valueOf.mpr ⟨u.toReal, hu.trans (congrArg some ?_)⟩
  exact (EReal.coe_toReal (ne_top_of_le_ne_top (EReal.coe_ne_top y) hac)
    (ne_bot_of_le_ne_bot (EReal.coe_ne_bot x) hba)).symm

/-- Two finite doubles in order stand for two reals in order. -/
theorem exists_reals_le (ha : a.isFinite = true) (hb : b.isFinite = true) (h : a ≤ b) :
    ∃ x y : ℝ, valueOf a = some (x : EReal) ∧ valueOf b = some (y : EReal) ∧ x ≤ y := by
  obtain ⟨x, hx⟩ := isFinite_iff_valueOf.mp ha
  obtain ⟨y, hy⟩ := isFinite_iff_valueOf.mp hb
  rw [le_iff_valueOf_le hx hy] at h
  exact ⟨x, y, hx, hy, EReal.coe_le_coe_iff.mp h⟩

/-- Comparing finite doubles is comparing real numbers. -/
theorem le_iff_real_le (hx : valueOf a = some (x : EReal)) (hy : valueOf b = some (y : EReal)) :
    a ≤ b ↔ x ≤ y := by
  rw [le_iff_valueOf_le hx hy, EReal.coe_le_coe_iff]

theorem lt_iff_real_lt (hx : valueOf a = some (x : EReal)) (hy : valueOf b = some (y : EReal)) :
    a < b ↔ x < y := by
  rw [LawfulOrdinate.lt_iff_le_not_ge, le_iff_real_le hx hy, le_iff_real_le hy hx,
    lt_iff_le_not_ge]

theorem valueOf_zero : valueOf 0.0 = some ((0 : ℝ) : EReal) := by
  have hzero : (0.0 : Float).toModel.unpack = .zero .positive := rfl
  rw [valueOf, hzero, value, signed_zero, EReal.coe_zero]

theorem roundsTo_zero_zero : RoundsTo 0 0.0 :=
  roundsTo_valueOf valueOf_zero

/-! ### Monotone operations -/

section

variable (ha : a.isFinite = true) (hb : b.isFinite = true) (hc : c.isFinite = true)
  (hd : d.isFinite = true)

include ha hb hc hd

/-- Sums grow with what is added: rounding keeps the order of the exact sums. -/
protected theorem add_le_add (hab : a ≤ b) (hcd : c ≤ d) : a + c ≤ b + d := by
  obtain ⟨x, y, hx, hy, hxy⟩ := exists_reals_le ha hb hab
  obtain ⟨u, v, hu, hv, huv⟩ := exists_reals_le hc hd hcd
  exact (roundsTo_add hx hu).le (roundsTo_add hy hv) (by linarith)

protected theorem sub_le_sub (hab : a ≤ b) (hcd : c ≤ d) : a - d ≤ b - c := by
  obtain ⟨x, y, hx, hy, hxy⟩ := exists_reals_le ha hb hab
  obtain ⟨u, v, hu, hv, huv⟩ := exists_reals_le hc hd hcd
  exact (roundsTo_sub hx hv).le (roundsTo_sub hy hu) (by linarith)

end

/-- Scaling by what is not negative keeps the order. -/
protected theorem mul_le_mul_of_nonneg (ha : a.isFinite = true) (hb : b.isFinite = true)
    (hc : c.isFinite = true) (hab : a ≤ b) (hpos : 0.0 ≤ c) : a * c ≤ b * c := by
  obtain ⟨x, y, hx, hy, hxy⟩ := exists_reals_le ha hb hab
  obtain ⟨z, hz⟩ := isFinite_iff_valueOf.mp hc
  rw [le_iff_real_le valueOf_zero hz] at hpos
  exact (roundsTo_mul hx hz).le (roundsTo_mul hy hz) (by gcongr)

theorem valueOf_one : valueOf 1.0 = some ((1 : ℝ) : EReal) := by
  have hone : (1.0 : Float).toModel.unpack = .finite .positive (2 ^ 52) (-52) (by decide) := rfl
  have hsize : dyadic (2 ^ 52) (-52) = 1 := by
    rw [dyadic]
    norm_num
  rw [valueOf, hone, value, signed_positive, hsize]

/-- A factor of size at most one does not carry a finite double out of the range. -/
theorem isFinite_mul (ha : a.isFinite = true) (hlower : -1.0 ≤ c) (hupper : c ≤ 1.0) :
    (a * c).isFinite = true := by
  have hc := isFinite_of_between (by decide) (by decide) hlower hupper
  obtain ⟨x, hx⟩ := isFinite_iff_valueOf.mp ha
  obtain ⟨z, hz⟩ := isFinite_iff_valueOf.mp hc
  rw [le_iff_real_le (valueOf_neg_coe valueOf_one) hz] at hlower
  rw [le_iff_real_le hz valueOf_one] at hupper
  have hself := roundsTo_valueOf hx
  have hproduct := roundsTo_mul hx hz
  have hneg : (-a).isFinite = true := isFinite_iff_valueOf.mpr ⟨_, valueOf_neg_coe hx⟩
  -- scaled down, a value stays between itself and its opposite
  rcases le_total 0 x with hpos | hpos
  · exact isFinite_of_between hneg ha (hself.neg.le hproduct (by nlinarith))
      (hproduct.le hself (by nlinarith))
  · exact isFinite_of_between ha hneg (hself.le hproduct (by nlinarith))
      (hproduct.le hself.neg (by nlinarith))

/-! ### Signs -/

/-- **A difference keeps its sign,** however close the two doubles are. -/
theorem sub_lt_zero (ha : a.isFinite = true) (hb : b.isFinite = true) (h : a < b) :
    a - b < 0.0 := by
  obtain ⟨x, hx⟩ := isFinite_iff_valueOf.mp ha
  obtain ⟨y, hy⟩ := isFinite_iff_valueOf.mp hb
  have hpos := zero_lt_sub h
  obtain ⟨u, hu⟩ := exists_valueOf (Ordinate.isNumber_right (Ordinate.le_of_lt hpos))
  have hopposite : valueOf (-(b - a)) = some (-u) := by
    rw [valueOf_neg, hu]
    rfl
  have hneg : -(b - a) < 0.0 := by
    rw [LawfulOrdinate.lt_iff_le_not_ge, le_iff_valueOf_le valueOf_zero hu,
      le_iff_valueOf_le hu valueOf_zero] at hpos
    rw [LawfulOrdinate.lt_iff_le_not_ge, le_iff_valueOf_le hopposite valueOf_zero,
      le_iff_valueOf_le valueOf_zero hopposite, EReal.coe_zero, EReal.neg_le_zero,
      EReal.neg_nonneg]
    exact hpos
  -- the exact difference of one is the opposite of the other, so that they are rounded alike
  have hsame : a - b ≤ -(b - a) :=
    (roundsTo_sub hx hy).le (roundsTo_sub hy hx).neg (by linarith)
  exact Ordinate.lt_of_le_of_lt hsame hneg

/-- A quotient by a positive double has the sign of the dividend. -/
theorem zero_le_div (ha : a.isFinite = true) (hb : b.isFinite = true) (hpos : 0.0 ≤ a)
    (hb' : 0.0 < b) : 0.0 ≤ a / b := by
  obtain ⟨x, hx⟩ := isFinite_iff_valueOf.mp ha
  obtain ⟨y, hy⟩ := isFinite_iff_valueOf.mp hb
  rw [le_iff_real_le valueOf_zero hx] at hpos
  rw [lt_iff_real_lt valueOf_zero hy] at hb'
  exact roundsTo_zero_zero.le (roundsTo_div hx hy hb'.ne') (by positivity)

/-- A quotient has the sign of its numerator above a positive denominator. -/
theorem div_le_zero (ha : a.isFinite = true) (hb : b.isFinite = true) (hneg : a ≤ 0.0)
    (hb' : 0.0 < b) : a / b ≤ 0.0 := by
  obtain ⟨x, hx⟩ := isFinite_iff_valueOf.mp ha
  obtain ⟨y, hy⟩ := isFinite_iff_valueOf.mp hb
  rw [le_iff_real_le hx valueOf_zero] at hneg
  rw [lt_iff_real_lt valueOf_zero hy] at hb'
  exact (roundsTo_div hx hy hb'.ne').le roundsTo_zero_zero
    (div_nonpos_of_nonpos_of_nonneg hneg hb'.le)

/-- A quotient of finite doubles is a number, infinite perhaps, unless the divisor is zero. -/
theorem isNumber_div (ha : a.isFinite = true) (hb : b.isFinite = true) (hne : (b == 0.0) = false) :
    IsNumber (a / b) := by
  obtain ⟨x, hx⟩ := isFinite_iff_valueOf.mp ha
  obtain ⟨y, hy⟩ := isFinite_iff_valueOf.mp hb
  refine (roundsTo_div hx hy fun hzero ↦ ?_).isNumber
  subst hzero
  rw [← Bool.not_eq_true, LawfulOrdinate.beq_iff_le_ge, le_iff_real_le hy valueOf_zero,
    le_iff_real_le valueOf_zero hy] at hne
  exact hne ⟨le_rfl, le_rfl⟩

/-! ### Neighbours and ends -/

/-- No finite double is beyond the greatest one. -/
theorem between_greatest (ha : a.isFinite = true) :
    -1.7976931348623157e308 ≤ a ∧ a ≤ 1.7976931348623157e308 := by
  have hlower : rankOf (-1.7976931348623157e308) =
      some (toLex (-1, toLex (-971, -(2 ^ 53 - 1)))) := by decide +kernel
  have hupper : rankOf 1.7976931348623157e308 =
      some (toLex (1, toLex (971, 2 ^ 53 - 1))) := by decide +kernel
  -- finite doubles are ranked between the two of greatest size
  suffices ∃ x, rankOf a = some x ∧ toLex (-1, toLex (-971, -(2 ^ 53 - 1))) ≤ x ∧
      x ≤ toLex (1, toLex (971, 2 ^ 53 - 1)) by
    obtain ⟨x, hx, hbelow, habove⟩ := this
    exact ⟨le_iff_rank.mpr ⟨_, x, hlower, hx, hbelow⟩, le_iff_rank.mpr ⟨x, _, hx, hupper, habove⟩⟩
  obtain ⟨x, hx⟩ := isFinite_iff_valueOf.mp ha
  have hrepresentable := representable_double a
  unfold rankOf
  rcases value_eq_coe hx with ⟨s, hf, -⟩ | ⟨s, m, e, hm, hf, -⟩ <;> rw [hf] at hrepresentable ⊢
  · exact ⟨_, rfl, by decide, by decide⟩
  · obtain ⟨hcanonical, hrange⟩ := hrepresentable
    have hdigits : m < 2 ^ 53 := (hcanonical.bounds hm).1
    have hexponent : e + 52 ≤ 1023 := hrange
    cases s <;> refine ⟨_, rfl, ?_⟩ <;> simp [Prod.Lex.toLex_le_toLex] <;> omega


/-- What is less than a nonzero double is at most the one before it. -/
theorem le_of_lt_of_rankOf {p q r : ℤ} (hb : rankOf b = some (toLex (p, toLex (q, r))))
    (hc : rankOf c = some (toLex (p, toLex (q, r - 1)))) (h : a < b) : a ≤ c := by
  obtain ⟨x, y, hx, hy, hxy⟩ := lt_iff_rank.mp h
  obtain rfl := Option.some.inj (hy.symm.trans hb)
  refine le_iff_rank.mpr ⟨x, _, hx, hc, ?_⟩
  obtain ⟨p', q', r', rfl⟩ : ∃ p' q' r', x = toLex (p', toLex (q', r')) := ⟨_, _, _, rfl⟩
  simp only [Prod.Lex.toLex_lt_toLex, Prod.Lex.toLex_le_toLex] at hxy ⊢
  omega

end Geospatial.Binary
