import Geospatial.Proofs.Binary.Rounding
import Geospatial.Proofs.Binary.Special

/-!
# Operations round once

A sum, a difference, a product or a quotient of finite doubles is the double that the exact result
rounds to: `RoundsTo` says of a double that it is what a real number becomes. So an operation on
doubles is compared with another one by comparing exact results (`RoundsTo.le`), and what an
operation does to an order is what it does to the order of the reals.

**Rounding is applied to the exact result once.** Each operation forms a mantissa and an exponent
that tell the exact result, a quotient with what is left over, and hands them over to be rounded.
-/

namespace Geospatial.Binary

open Float.Model (Format UnpackedFloat totalExponent)
open Float.Model.UnpackedFloat

variable {a b : Float} {x y : ℝ}

/-- The number is rounded to the double: its size to the double's size, on the same side of zero. -/
inductive RoundsTo (x : ℝ) (a : Float) : Prop
  | intro (s : Sign) (u v : EReal) (exact : (x : EReal) = signed s u)
      (rounded : valueOf a = some (signed s v)) (rounds : Rounds .binary64 u v)

/-- **Numbers in order are rounded to doubles in order.** -/
theorem RoundsTo.le (ha : RoundsTo x a) (hb : RoundsTo y b) (h : x ≤ y) : a ≤ b := by
  obtain ⟨s, u, v, hx, hv, hrounds⟩ := ha
  obtain ⟨s', u', v', hy, hv', hrounds'⟩ := hb
  rw [le_iff_valueOf_le hv hv']
  refine hrounds.signed_mono hrounds' ?_
  rw [← hx, ← hy]
  exact EReal.coe_le_coe_iff.mpr h

/-- A number is rounded to one double, up to the sign of a zero. -/
theorem RoundsTo.beq (ha : RoundsTo x a) (hb : RoundsTo x b) : (a == b) = true :=
  LawfulOrdinate.beq_iff_le_ge.mpr ⟨ha.le hb le_rfl, hb.le ha le_rfl⟩

theorem RoundsTo.isNumber (h : RoundsTo x a) : Ordinate.IsNumber a :=
  h.le h le_rfl

/-! ### Finite values -/

/-- The real number of a size, on the side of the sign. -/
noncomputable def onSide : Sign → ℝ → ℝ
  | .positive, x => x
  | .negative, x => -x

/-- The sign can be given before or after passing to the extended reals. -/
theorem coe_onSide (s : Sign) (x : ℝ) : (onSide s x : EReal) = signed s x := by
  cases s with
  | positive => rfl
  | negative => exact EReal.coe_neg x

/-- A finite double is its signed mantissa, scaled. -/
theorem onSide_dyadic (s : Sign) (m : ℕ) (e : ℤ) : onSide s (dyadic m e) = s.apply m * 2 ^ e := by
  cases s with
  | positive => rfl
  | negative => rw [onSide, dyadic, Sign.apply, Int.cast_neg, Int.cast_natCast, neg_mul]

theorem onSide_mul (s t : Sign) (x y : ℝ) : onSide s x * onSide t y = onSide (s * t) (x * y) := by
  cases s <;> cases t
  · exact neg_mul_neg x y
  · exact neg_mul x y
  · exact mul_neg x y
  · rfl

theorem onSide_div (s t : Sign) (x y : ℝ) : onSide s x / onSide t y = onSide (s / t) (x / y) := by
  cases s <;> cases t
  · exact neg_div_neg_eq x y
  · exact neg_div y x
  · exact div_neg x
  · rfl

/-- What stands for a real number is a zero, or has a mantissa and an exponent. -/
theorem value_eq_coe {f : UnpackedFloat} (h : value f = some (x : EReal)) :
    (∃ s, f = .zero s ∧ x = 0) ∨ ∃ s m e hm, f = .finite s m e hm ∧ x = onSide s (dyadic m e) := by
  rcases f with s | - | s | ⟨s, m, e, hm⟩
  case notANumber => cases h
  case infinity =>
    cases s with
    | positive => exact absurd (Option.some.inj h).symm (EReal.coe_ne_top x)
    | negative => exact absurd (Option.some.inj h).symm (EReal.coe_ne_bot x)
  case zero =>
    rw [value, signed_zero] at h
    exact Or.inl ⟨s, rfl, (EReal.coe_eq_zero.mp (Option.some.inj h).symm)⟩
  case finite =>
    rw [value, ← coe_onSide] at h
    exact Or.inr ⟨s, m, e, hm, rfl, (EReal.coe_injective (Option.some.inj h)).symm⟩

/-- To be finite is to have a real value. -/
theorem isFinite_iff_value {f : UnpackedFloat} :
    f.isFinite = true ↔ ∃ x : ℝ, value f = some (x : EReal) := by
  constructor
  · intro h
    rcases f with s | - | s | ⟨s, m, e, hm⟩
    case infinity | notANumber => cases h
    case zero => exact ⟨0, by rw [value, signed_zero, EReal.coe_zero]⟩
    case finite => exact ⟨onSide s (dyadic m e), by rw [value, coe_onSide]⟩
  · rintro ⟨x, h⟩
    rcases value_eq_coe h with ⟨s, rfl, -⟩ | ⟨s, m, e, hm, rfl, -⟩ <;> rfl

theorem isFinite_iff_valueOf : a.isFinite = true ↔ ∃ x : ℝ, valueOf a = some (x : EReal) :=
  isFinite_iff_value

/-! ### What is packed -/

/-- The double has the bits that the value is packed in. -/
def Packs (a : Float) (g : UnpackedFloat) : Prop :=
  a.toModel.unpack = unpack .binary64 (pack .binary64 g)

/-- The value of a result is read back from its bits. -/
theorem Packs.valueOf_eq {g : UnpackedFloat} (h : Packs a g) :
    valueOf a = value (unpack .binary64 (pack .binary64 g)) :=
  congrArg value h

/-- A zero of either sign is what zero is rounded to. -/
theorem roundsTo_zero {s : Sign} (h : Packs a (.zero s)) : RoundsTo 0 a := by
  refine ⟨s, 0, 0, by rw [signed_zero, EReal.coe_zero], ?_, .zero⟩
  rw [h.valueOf_eq, value_packed_zero]

section

variable {s : Sign} {m : ℕ} {e t : ℤ} {acc : Accuracy} {g : UnpackedFloat}

/-- A mantissa that tells the number to be rounded makes the double that the number rounds to. -/
theorem roundsTo_roundWithAccuracy (hx : 0 < x) (hunit : HasUnit .binary64 x t) (he : e ≤ t)
    (hm : Tells (.ofMantissaAndAccuracy m acc) (x / 2 ^ e))
    (h : Packs a (roundWithAccuracy .binary64 s m e acc)) (hy : (y : EReal) = signed s x) :
    RoundsTo y a := by
  obtain ⟨r, hnearest, hround⟩ := exists_roundWithAccuracy s hunit he hm
  obtain ⟨v, hv, hrounds⟩ := exists_rounds_packed (by decide) s hx hunit hnearest hround
  exact ⟨s, x, v, hy, h.valueOf_eq.trans hv, hrounds⟩

/-- Rounding a size with digits is correct, whatever its exponent. -/
theorem roundsTo_round (hm : 0 < m) (h : Packs a (UnpackedFloat.round .binary64 s m e)) :
    RoundsTo (onSide s (dyadic m e)) a := by
  obtain ⟨t, ht⟩ : ∃ t, Format.binary64.targetExponent (totalExponent m e) = t := ⟨_, rfl⟩
  obtain ⟨r, hnearest, hround⟩ := exists_round s hm ht
  obtain ⟨v, hv, hrounds⟩ := exists_rounds_packed (by decide) s (dyadic_pos hm e)
    (hasUnit_dyadic hm ht) hnearest hround
  exact ⟨s, _, v, coe_onSide s _, h.valueOf_eq.trans hv, hrounds⟩

/-- And so it is for a signed sum of digits, which may have come out as zero. -/
theorem roundsTo_normalize {k : ℤ} (h : Packs a (UnpackedFloat.normalize .binary64 k e s)) :
    RoundsTo (k * 2 ^ e) a := by
  unfold UnpackedFloat.normalize at h
  rcases lt_trichotomy k 0 with hk | rfl | hk
  · rw [Int.compare_eq_lt.mpr hk] at h
    have hsize : ((-k).toNat : ℤ) = -k := by omega
    have hround := roundsTo_round (by omega) h
    rwa [onSide_dyadic, Sign.apply, hsize, neg_neg] at hround
  · rw [Int.compare_eq_eq.mpr rfl] at h
    rw [Int.cast_zero, zero_mul]
    exact roundsTo_zero h
  · rw [Int.compare_eq_gt.mpr hk] at h
    have hsize : (k.toNat : ℤ) = k := by omega
    have hround := roundsTo_round (by omega) h
    rwa [onSide_dyadic, Sign.apply, hsize] at hround

/-- A value that doubles have is not changed by rounding. -/
theorem roundsTo_representable (hg : Representable .binary64 g) (hx : value g = some (x : EReal))
    (h : Packs a g) : RoundsTo x a := by
  rcases value_eq_coe hx with ⟨s, rfl, rfl⟩ | ⟨s, m, e, hm, rfl, rfl⟩
  · exact roundsTo_zero h
  · refine roundsTo_round hm ?_
    have hround := round_mul s hm hg.1 0
    rw [Nat.pow_zero, Nat.mul_one, Nat.cast_zero, Int.sub_zero] at hround
    rwa [hround]

/-- A double is what its own value is rounded to. -/
theorem roundsTo_valueOf (hx : valueOf a = some (x : EReal)) : RoundsTo x a :=
  roundsTo_representable (representable_double a) hx
    (unpack_pack (representable_double a)).symm

end

/-! ### Beyond the range -/

section

variable {s : Sign}

/-- What is beyond the range is rounded to infinity. -/
theorem roundsTo_infinity (hx : 2 ^ (1024 : ℤ) ≤ x) (h : Packs a (.infinity s)) :
    RoundsTo (onSide s x) a := by
  have hpos : 0 < x := lt_of_lt_of_le (by positivity) hx
  obtain ⟨t, hunit⟩ := exists_hasUnit .binary64 hpos
  obtain ⟨r, hnearest⟩ := exists_isNearest (div_nonneg hpos.le (zpow_nonneg zero_le_two t))
  -- the range ends at a whole number of units
  have hsize : ((2 ^ 52 : ℕ) : ℝ) * 2 ^ (972 : ℤ) = dyadic 1 1024 := by
    rw [two_pow_mul_zpow, dyadic_one]
    rfl
  have hend := isNearest_natCast (2 ^ 52)
  rw [← mul_div_cancel_right₀ ((2 ^ 52 : ℕ) : ℝ) (zpow_ne_zero (972 : ℤ) two_ne_zero), hsize]
    at hend
  have hunit' : HasUnit .binary64 (dyadic 1 1024) 972 := hasUnit_dyadic Nat.one_pos (by decide)
  have hover := hunit'.nearest_mono hend hunit hnearest (by rwa [dyadic_one])
  have hcapped : capped .binary64 (r * 2 ^ t) = ⊤ := by
    rw [hsize] at hover
    exact if_neg (not_lt.mpr hover)
  refine ⟨s, x, ⊤, coe_onSide s x, ?_, ?_⟩
  · rw [h.valueOf_eq, value_packed_infinity]
  · rw [← hcapped]
    exact .finite hpos hunit hnearest

/-- What is below half the least unit is rounded to zero. -/
theorem roundsTo_zero_of_lt (hpos : 0 < x) (hx : x < 2 ^ (-1075 : ℤ)) (h : Packs a (.zero s)) :
    RoundsTo (onSide s x) a := by
  have hunit : (0 : ℝ) < 2 ^ (-1074 : ℤ) := zpow_pos two_pos _
  have hsize : 0 < x / 2 ^ (-1074 : ℤ) := div_pos hpos hunit
  have hhalf : x / 2 ^ (-1074 : ℤ) < 1 / 2 := by
    have hpower : (2 : ℝ) ^ (-1075 : ℤ) = 1 / 2 * 2 ^ (-1074 : ℤ) := by
      rw [show (-1075 : ℤ) = -1 + -1074 by rfl, zpow_add₀ two_ne_zero, zpow_neg_one, one_div]
    rwa [div_lt_iff₀ hunit, ← hpower]
  -- so small a size has the unit of the least double, and is less than half of it
  have hunit' : HasUnit .binary64 x (-1074) :=
    hasUnit_of_bounds hpos (by decide) (fun h ↦ absurd h (by decide))
      (hhalf.trans (one_half_lt_one.trans (one_lt_pow₀ one_lt_two (by decide))))
  have hnearest : IsNearest (x / 2 ^ (-1074 : ℤ)) 0 :=
    isNearest_of_lt (by push_cast; linarith) (by push_cast; linarith)
  refine ⟨s, x, 0, coe_onSide s x, ?_, ?_⟩
  · rw [h.valueOf_eq, value_packed_zero]
  · rw [← capped_zero (-1074)]
    exact .finite hpos hunit' hnearest

end

/-! ### Sums and differences -/

/-- Lowering the exponent appends zeros and keeps the value. -/
theorem dyadic_decreaseExponent (m : ℕ) {e low : ℤ} (h : low ≤ e) :
    dyadic (decreaseExponent m e low).1 low = dyadic m e := by
  have hsize := dyadic_mul_two_pow m (e - low).toNat e
  have hlow : e - ((e - low).toNat : ℤ) = low := by omega
  rw [hlow] at hsize
  rwa [decreaseExponent, Nat.shiftLeft_eq]

/-- A sum is told by the smaller exponent of its terms. -/
theorem roundsTo_add_unpacked {f g : UnpackedFloat} (hf : Representable .binary64 f)
    (hg : Representable .binary64 g) (hx : value f = some (x : EReal))
    (hy : value g = some (y : EReal)) (h : Packs a (add .binary64 f g)) : RoundsTo (x + y) a := by
  rcases value_eq_coe hx with ⟨s, rfl, rfl⟩ | ⟨s, m, e, hm, rfl, rfl⟩
  · rw [zero_add]
    rcases value_eq_coe hy with ⟨t, rfl, rfl⟩ | ⟨t, n, f, hn, rfl, rfl⟩
    · have hsum : ∃ r, add .binary64 (.zero s) (.zero t) = .zero r := by
        cases s <;> cases t <;> exact ⟨_, rfl⟩
      obtain ⟨r, hr⟩ := hsum
      exact roundsTo_zero (hr ▸ h)
    · exact roundsTo_representable hg hy h
  · rcases value_eq_coe hy with ⟨t, rfl, rfl⟩ | ⟨t, n, f, hn, rfl, rfl⟩
    · rw [add_zero]
      exact roundsTo_representable hf hx h
    · have hsum := roundsTo_normalize h
      rw [Int.cast_add, add_mul] at hsum
      -- both mantissas are written over the lesser of the two exponents
      have hleft := dyadic_decreaseExponent m (min_le_left e f)
      have hright := dyadic_decreaseExponent n (min_le_right e f)
      rw [← hleft, ← hright, onSide_dyadic, onSide_dyadic]
      exact hsum

/-- **Addition is rounded correctly**, also where the exact sum is out of range. -/
theorem roundsTo_add (hx : valueOf a = some (x : EReal)) (hy : valueOf b = some (y : EReal)) :
    RoundsTo (x + y) (a + b) :=
  roundsTo_add_unpacked (representable_double a) (representable_double b) hx hy rfl

theorem signed_neg (s : Sign) (u : EReal) : signed (-s) u = -signed s u := by
  cases s with
  | positive => rfl
  | negative => exact (neg_neg u).symm

theorem value_neg (f : UnpackedFloat) : value f.neg = (value f).map (-·) := by
  cases f with
  | notANumber => rfl
  | infinity s => exact congrArg some (signed_neg s _)
  | zero s => exact congrArg some (signed_neg s _)
  | finite s m e hm => exact congrArg some (signed_neg s _)

theorem representable_neg {spec : Format} {f : UnpackedFloat} (h : Representable spec f) :
    Representable spec f.neg := by
  cases f <;> exact h

theorem valueOf_neg (a : Float) : valueOf (-a) = (valueOf a).map (-·) := by
  have hpacks : Packs (-a) a.toModel.unpack.neg := rfl
  rw [hpacks.valueOf_eq, unpack_pack (representable_neg (representable_double a))]
  exact value_neg _

theorem valueOf_neg_coe (h : valueOf a = some (x : EReal)) :
    valueOf (-a) = some ((-x : ℝ) : EReal) := by
  rw [valueOf_neg, h, EReal.coe_neg]
  rfl

/-- Rounding treats the two sides of zero alike. -/
theorem RoundsTo.neg (h : RoundsTo x a) : RoundsTo (-x) (-a) := by
  obtain ⟨s, u, v, hx, hv, hrounds⟩ := h
  refine ⟨-s, u, v, ?_, ?_, hrounds⟩
  · rw [EReal.coe_neg, hx, signed_neg]
  · rw [valueOf_neg, hv, signed_neg]
    rfl

/-- **So is subtraction**, as the sum with the negated double. -/
theorem roundsTo_sub (hx : valueOf a = some (x : EReal)) (hy : valueOf b = some (y : EReal)) :
    RoundsTo (x - y) (a - b) := by
  have hpacks : Packs (a - b) (sub .binary64 a.toModel.unpack b.toModel.unpack) := rfl
  rw [sub_eq_add_neg] at hpacks
  have hdifference : x - y = x + -y := by ring
  rw [hdifference]
  have hopposite : value b.toModel.unpack.neg = some ((-y : ℝ) : EReal) := by
    rw [value_neg, show value b.toModel.unpack = _ from hy, EReal.coe_neg]
    rfl
  exact roundsTo_add_unpacked (representable_double a)
    (representable_neg (representable_double b)) hx hopposite hpacks

/-! ### Products and quotients -/

/-- The product of two mantissas has no fewer digits than the format, unless both exponents are the
least one. -/
theorem add_exponents_le {spec : Format} {m n : ℕ} {e f : ℤ} (hm : 0 < m) (hn : 0 < n)
    (hmin : spec.minExponent ≤ 0) (h : Canonical spec m e) (h' : Canonical spec n f) :
    e + f ≤ spec.targetExponent (totalExponent (m * n) (e + f)) := by
  have hpos : m * n ≠ 0 := (Nat.mul_pos hm hn).ne'
  have hleft : m.log2 ≤ (m * n).log2 :=
    (Nat.le_log2 hpos).mpr ((Nat.log2_self_le hm.ne').trans (Nat.le_mul_of_pos_right m hn))
  have hright : n.log2 ≤ (m * n).log2 :=
    (Nat.le_log2 hpos).mpr ((Nat.log2_self_le hn.ne').trans (Nat.le_mul_of_pos_left n hm))
  rw [canonical_iff hm] at h
  rw [canonical_iff hn] at h'
  unfold Format.targetExponent totalExponent Format.mantissaBits
  omega

theorem dyadic_mul (m n : ℕ) (e f : ℤ) : dyadic m e * dyadic n f = dyadic (m * n) (e + f) := by
  rw [dyadic, dyadic, dyadic, zpow_add₀ two_ne_zero, Nat.cast_mul]
  ring

/-- A product is told by the product of the mantissas, if that has digits enough. -/
theorem roundsTo_mul_finite {s t : Sign} {m n : ℕ} {e f : ℤ} (hm : 0 < m) (hn : 0 < n)
    (he : e + f ≤ Format.binary64.targetExponent (totalExponent (m * n) (e + f)))
    (h : Packs a (mul .binary64 (.finite s m e hm) (.finite t n f hn))) :
    RoundsTo (onSide s (dyadic m e) * onSide t (dyadic n f)) a := by
  have hpos : 0 < m * n := Nat.mul_pos hm hn
  have htells : Tells (.ofMantissaAndAccuracy (m * n) .exact)
      (dyadic (m * n) (e + f) / 2 ^ (e + f)) := by
    rw [dyadic_div_self]
    exact tells_exact (m * n)
  rw [onSide_mul, dyadic_mul]
  exact roundsTo_roundWithAccuracy (dyadic_pos hpos _) (hasUnit_dyadic hpos rfl) he htells h
    (coe_onSide _ _)

/-- **So is multiplication**, zeros included. -/
theorem roundsTo_mul (hx : valueOf a = some (x : EReal)) (hy : valueOf b = some (y : EReal)) :
    RoundsTo (x * y) (a * b) := by
  have hpacks : Packs (a * b) (mul .binary64 a.toModel.unpack b.toModel.unpack) := rfl
  have ha := representable_double a
  have hb := representable_double b
  rcases value_eq_coe hx with ⟨s, hf, rfl⟩ | ⟨s, m, e, hm, hf, rfl⟩ <;>
    rcases value_eq_coe hy with ⟨t, hg, rfl⟩ | ⟨t, n, f, hn, hg, rfl⟩ <;>
      rw [hf, hg] at hpacks
  · rw [zero_mul]
    exact roundsTo_zero hpacks
  · rw [zero_mul]
    exact roundsTo_zero hpacks
  · rw [mul_zero]
    exact roundsTo_zero hpacks
  · rw [hf] at ha
    rw [hg] at hb
    exact roundsTo_mul_finite hm hn (add_exponents_le hm hn (by decide) ha.1 hb.1) hpacks

/-- The exponent of a quotient's mantissa is no greater than the one that the quotient is rounded
to. -/
theorem HasUnit.le_of_quotient {spec : Format} {m n : ℕ} {e f t : ℤ} (hm : 0 < m) (hn : 0 < n)
    (h : HasUnit spec (dyadic m e / dyadic n f) t) :
    spec.targetExponent (totalExponent m e - totalExponent n f) ≤ t := by
  obtain ⟨digits, -, hupper, rfl⟩ := h
  rw [div_lt_iff₀ (dyadic_pos hn f)] at hupper
  have hbelow : (2 : ℝ) ^ (totalExponent m e - 1) < 2 ^ (digits + totalExponent n f) := by
    rw [zpow_add₀ two_ne_zero]
    calc (2 : ℝ) ^ (totalExponent m e - 1)
      _ ≤ dyadic m e := le_dyadic hm e
      _ < 2 ^ digits * dyadic n f := hupper
      _ ≤ 2 ^ digits * 2 ^ totalExponent n f := by gcongr; exact (dyadic_lt n f).le
  have hdigits := (zpow_lt_zpow_iff_right₀ one_lt_two).mp hbelow
  unfold Format.targetExponent
  omega

/-- A quotient is told by a quotient of mantissas and what is left over. -/
theorem roundsTo_div_finite {s t : Sign} {m n : ℕ} {e f : ℤ} (hm : 0 < m) (hn : 0 < n)
    (h : Packs a (div .binary64 (.finite s m e hm) (.finite t n f hn))) :
    RoundsTo (onSide s (dyadic m e) / onSide t (dyadic n f)) a := by
  have hpos : 0 < dyadic m e / dyadic n f := div_pos (dyadic_pos hm e) (dyadic_pos hn f)
  obtain ⟨unit, hunit⟩ := exists_hasUnit .binary64 hpos
  -- the quotient is computed with enough digits for its unit
  obtain ⟨low, hlow⟩ : ∃ low, min (e - f)
      (Format.binary64.targetExponent (totalExponent m e - totalExponent n f)) = low := ⟨_, rfl⟩
  have hle : low ≤ unit := by
    have hquotient := hunit.le_of_quotient hm hn
    omega
  have htells := tells_quotient (m <<< (e - f - low).toNat) hn
  have hsize : ((m <<< (e - f - low).toNat : ℕ) / n : ℝ) = dyadic m e / dyadic n f / 2 ^ low := by
    have hexponent : ((e - f - low).toNat : ℤ) = e - f - low := by omega
    rw [Nat.shiftLeft_eq, Nat.cast_mul, Nat.cast_pow, Nat.cast_ofNat, ← zpow_natCast, hexponent,
      zpow_sub₀ two_ne_zero, zpow_sub₀ two_ne_zero, dyadic, dyadic]
    field_simp
  rw [hsize] at htells
  rw [onSide_div]
  have hpacks : Packs a (roundWithAccuracy .binary64 (s / t) (m <<< (e - f - low).toNat / n) low
      (accuracyOfFraction (m <<< (e - f - low).toNat % n) n)) := by
    rw [← hlow]
    exact h
  exact roundsTo_roundWithAccuracy hpos hunit hle htells hpacks (coe_onSide _ _)

/-- **And division**, unless by zero. -/
theorem roundsTo_div (hx : valueOf a = some (x : EReal)) (hy : valueOf b = some (y : EReal))
    (hne : y ≠ 0) : RoundsTo (x / y) (a / b) := by
  have hpacks : Packs (a / b) (div .binary64 a.toModel.unpack b.toModel.unpack) := rfl
  rcases value_eq_coe hy with ⟨t, -, rfl⟩ | ⟨t, n, f, hn, hg, rfl⟩
  · exact absurd rfl hne
  rcases value_eq_coe hx with ⟨s, hf, rfl⟩ | ⟨s, m, e, hm, hf, rfl⟩ <;> rw [hf, hg] at hpacks
  · rw [zero_div]
    exact roundsTo_zero hpacks
  · exact roundsTo_div_finite hm hn hpacks

end Geospatial.Binary
