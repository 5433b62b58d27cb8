import Geospatial.Proofs.Decimal.Rounding

/-!
# Numerals that read back

A finite double and the shortest numeral that is written for it are read as each other
(`SignedNumeral.toFloat_of_ofFloat?`). On each grid the tests are about the interval of the numbers
that round to the double (`Magnitude.Reaches`), so what passes them is rounded to it
(`Magnitude.Reaches.rounds`); the value written out in full passes as well. Nothing is asked of the
search: whether it finds a numeral or falls back on the full one, what it gives reads back.

**Below a power of two the unit is halved.** There the interval reaches a quarter down, half of the
smaller unit, and a number in that part is rounded in the smaller unit, up to the power of two.
-/

namespace Geospatial.Decimal

open Binary
open Float.Model (Format UnpackedFloat totalExponent)
open Float.Model.UnpackedFloat

/-! ### The interval -/

namespace Magnitude

/-- The number that a magnitude tells. -/
noncomputable def value (x : Magnitude) : ℝ :=
  dyadic x.significand x.exponent

/-- How far down the interval reaches, in units of the last binary place: one quarter or two. -/
noncomputable def reachBelow (x : Magnitude) : ℝ :=
  (if x.narrowBelow then 1 else 2 : ℕ) / (4 : ℕ)

/-- The number lies in the interval around the value, at one of its ends only where the significand
is even. -/
structure Reaches (x : Magnitude) (v : ℝ) : Prop where
  lower : x.significand - x.reachBelow ≤ v / 2 ^ x.exponent
  upper : v / 2 ^ x.exponent ≤ x.significand + 1 / 2
  even (h : v / 2 ^ x.exponent = x.significand - x.reachBelow ∨
    v / 2 ^ x.exponent = x.significand + 1 / 2) : Even x.significand

variable {x : Magnitude} {k : ℤ} {d : ℕ} {v : ℝ}

/-- Below a power of two the doubles are closer, so that less is read back from there. -/
theorem reachBelow_mem (x : Magnitude) : 1 / 4 ≤ x.reachBelow ∧ x.reachBelow ≤ 1 / 2 := by
  unfold reachBelow
  split <;> norm_num

theorem reaches_value (x : Magnitude) : x.Reaches x.value := by
  obtain ⟨hlower, hupper⟩ := x.reachBelow_mem
  have hself : x.value / 2 ^ x.exponent = x.significand := dyadic_div_self _ _
  refine ⟨?_, ?_, ?_⟩ <;> rw [hself]
  · linarith
  · linarith
  · intro h
    exfalso
    rcases h with h | h <;> linarith

/-! ### The tests on a grid -/

theorem pow_toNat {b : ℝ} (hb : b ≠ 0) (e : ℤ) : b ^ e.toNat = b ^ (-e).toNat * b ^ e := by
  rcases Int.le_total 0 e with h | h
  · obtain ⟨n, rfl⟩ := Int.eq_ofNat_of_zero_le h
    simp
  · obtain ⟨n, rfl⟩ := Int.exists_eq_neg_ofNat h
    simp [hb]

/-- The two products that are compared count the same in steps of the grid as in units of the last
binary place. -/
theorem unit_mul (x : Magnitude) (k : ℤ) :
    (x.unit k : ℝ) * 10 ^ k = x.divisor k * 2 ^ x.exponent := by
  have htwo := pow_toNat (two_ne_zero : (2 : ℝ) ≠ 0) x.exponent
  have hten := pow_toNat (by norm_num : (10 : ℝ) ≠ 0) k
  simp only [unit, divisor, Nat.pow_eq, Nat.cast_mul, Nat.cast_pow, Nat.cast_ofNat]
  rw [htwo, hten]
  ring

/-- Counted in steps of a size, a decimal is a fraction of natural numbers. -/
theorem steps_eq (x : Magnitude) (k : ℤ) (q : ℕ) :
    q * (10 : ℝ) ^ k / 2 ^ x.exponent = (q * x.divisor k : ℕ) / x.unit k := by
  have hunit : (x.unit k : ℝ) ≠ 0 := mod_cast (x.unit_pos k).ne'
  rw [div_eq_div_iff (zpow_ne_zero _ two_ne_zero) hunit, mul_assoc, mul_comm (10 ^ k), x.unit_mul,
    Nat.cast_mul, mul_assoc]

theorem unit_le_iff (x : Magnitude) (k : ℤ) (p q : ℕ) :
    p * x.unit k ≤ q * x.divisor k ↔ (p : ℝ) ≤ q * 10 ^ k / 2 ^ x.exponent := by
  have hunit : (0 : ℝ) < x.unit k := mod_cast x.unit_pos k
  rw [x.steps_eq, le_div_iff₀ hunit]
  norm_cast

theorem le_unit_iff (x : Magnitude) (k : ℤ) (p q : ℕ) :
    q * x.divisor k ≤ p * x.unit k ↔ q * 10 ^ k / 2 ^ x.exponent ≤ (p : ℝ) := by
  have hunit : (0 : ℝ) < x.unit k := mod_cast x.unit_pos k
  rw [x.steps_eq, div_le_iff₀ hunit]
  norm_cast

/-- Four times the reach is a natural number. -/
theorem four_mul_reachBelow (hpos : 0 < x.significand) :
    ((4 * x.significand - (if x.narrowBelow then 1 else 2) : ℕ) : ℝ) =
      4 * (x.significand - x.reachBelow) := by
  unfold reachBelow
  split
  · rw [Nat.cast_sub (by omega)]
    push_cast
    ring
  · rw [Nat.cast_sub (by omega)]
    push_cast
    ring

/-- **What passes the tests lies in the interval.** -/
theorem reaches_of_readsBack (hpos : 0 < x.significand) (h : x.readsBack k d = true) :
    x.Reaches (d * 10 ^ k) := by
  have hbelow := four_mul_reachBelow hpos
  have habove : ((4 * x.significand + 2 : ℕ) : ℝ) = 4 * (x.significand + 1 / 2) := by
    push_cast
    ring
  have hpoint : ((4 * d : ℕ) : ℝ) * 10 ^ k / 2 ^ x.exponent =
      4 * (d * 10 ^ k / 2 ^ x.exponent) := by
    push_cast
    ring
  unfold readsBack at h
  simp only at h
  split at h
  next heven =>
    rw [Bool.and_eq_true, decide_eq_true_iff, decide_eq_true_iff, unit_le_iff, le_unit_iff,
      hbelow, habove, hpoint] at h
    exact ⟨by linarith, by linarith, fun _ ↦ Nat.even_iff.mpr heven⟩
  next =>
    rw [Bool.and_eq_true, decide_eq_true_iff, decide_eq_true_iff, ← not_le, ← not_le, unit_le_iff,
      le_unit_iff, hbelow, habove, hpoint, not_le, not_le] at h
    refine ⟨by linarith, by linarith, fun hend ↦ ?_⟩
    exfalso
    rcases hend with hend | hend <;> linarith

/-! ### What lies in the interval is rounded to the value -/

/-- The magnitude of a double: in canonical form, within the range, and with a narrow gap below
where the significand is the least one with all digits and the exponent is not the least. -/
structure IsDouble (x : Magnitude) : Prop where
  pos : 0 < x.significand
  canonical : Canonical .binary64 x.significand x.exponent
  range : x.exponent + 52 ≤ 1023
  narrow : x.narrowBelow = true ↔ x.significand = 2 ^ 52 ∧ Format.binary64.minExponent < x.exponent

/-- What reaches a size is rounded to its mantissa. -/
theorem Reaches.isNearest (h : x.Reaches v) : IsNearest (v / 2 ^ x.exponent) x.significand := by
  obtain ⟨hbelow, hbelow'⟩ := x.reachBelow_mem
  have hlower := h.lower
  refine ⟨by linarith, h.upper, fun hend ↦ h.even (hend.imp_left fun heq ↦ ?_)⟩
  linarith

/-- One exponent lower, everything has twice the digits. -/
theorem div_zpow_sub_one (v : ℝ) (e : ℤ) : v / 2 ^ (e - 1) = 2 * (v / 2 ^ e) := by
  rw [zpow_sub_one₀ two_ne_zero]
  field_simp

/-- Below a power of two the nearest number of the smaller units is the power. -/
theorem Reaches.isNearest_halved (h : x.Reaches v) (hnarrow : x.narrowBelow = true)
    (hm : x.significand = 2 ^ 52) (hlt : v / 2 ^ x.exponent < 2 ^ 52) :
    IsNearest (v / 2 ^ (x.exponent - 1)) (2 ^ 53) := by
  have hlower := h.lower
  rw [reachBelow, if_pos hnarrow, hm] at hlower
  rw [div_zpow_sub_one]
  push_cast at hlower
  refine ⟨?_, ?_, fun _ ↦ (by decide)⟩
  · push_cast
    linarith
  · push_cast
    linarith

theorem IsDouble.capped_value (hx : x.IsDouble) : capped .binary64 x.value = x.value :=
  if_pos ((hx.canonical.in_range_iff hx.pos (by decide)).mp hx.range)

/-- A number in the interval that has fewer digits than it should, in units of the last binary
place, is below a power of two. -/
theorem Reaches.significand_eq (h : x.Reaches v) (hx : x.IsDouble)
    (hmin : Format.binary64.minExponent < x.exponent) (hlt : v / 2 ^ x.exponent < 2 ^ 52) :
    x.significand = 2 ^ 52 := by
  have hlower := h.isNearest.lower
  have hmost : x.significand < 2 ^ 52 + 1 := by
    have hbelow : (x.significand : ℝ) < (2 ^ 52 + 1 : ℕ) := by
      push_cast
      linarith
    exact_mod_cast hbelow
  rcases (canonical_iff hx.pos).mp hx.canonical with ⟨hdigits, -⟩ | ⟨-, hleast⟩
  · have hfull : 2 ^ 52 ≤ x.significand := (Nat.le_log2 hx.pos.ne').mp hdigits.ge
    omega
  · omega

/-- **What lies in the interval around a double is rounded to it.** -/
theorem Reaches.rounds (h : x.Reaches v) (hx : x.IsDouble) : Rounds .binary64 v x.value := by
  obtain ⟨hdigits, hmin⟩ := hx.canonical.bounds hx.pos
  have hunit : (0 : ℝ) < 2 ^ x.exponent := zpow_pos two_pos _
  have hnearest := h.isNearest
  have hmost : (x.significand : ℝ) + 1 ≤ 2 ^ 53 := mod_cast hdigits
  have hleast : (1 : ℝ) ≤ x.significand := mod_cast hx.pos
  have hlower := hnearest.lower
  have hupper := hnearest.upper
  have hv : 0 < v := (div_pos_iff_of_pos_right hunit).mp (by linarith)
  rw [← hx.capped_value]
  by_cases hfull : Format.binary64.minExponent < x.exponent → 2 ^ 52 ≤ v / 2 ^ x.exponent
  · have hbound : v / 2 ^ x.exponent < 2 ^ 53 := by linarith
    exact .finite hv (hasUnit_of_bounds hv hmin hfull hbound) hnearest
  · -- the number is rounded in the smaller unit, to the same power of two
    obtain ⟨hlt, hbelow⟩ := Classical.not_imp.mp hfull
    have hbelow' := not_le.mp hbelow
    have hm := h.significand_eq hx hlt hbelow'
    have hhalved := h.isNearest_halved (hx.narrow.mpr ⟨hm, hlt⟩) hm hbelow'
    have hlower' := hhalved.lower
    have hunit' : HasUnit .binary64 v (x.exponent - 1) := by
      refine hasUnit_of_bounds hv (by omega) (fun _ ↦ ?_) ?_
      · show 2 ^ 52 ≤ v / 2 ^ (x.exponent - 1)
        push_cast at hlower'
        linarith
      · show v / 2 ^ (x.exponent - 1) < 2 ^ 53
        rw [div_zpow_sub_one]
        linarith
    have hvalue : x.value = ((2 ^ 53 : ℕ) : ℝ) * 2 ^ (x.exponent - 1) := by
      rw [value, dyadic, hm, zpow_sub_one₀ two_ne_zero]
      push_cast
      ring
    rw [hvalue]
    exact .finite hv hunit' hhalved

end Magnitude

/-! ### The shortest numeral -/

/-- Without its trailing zeros a numeral tells the same number. -/
theorem Numeral.value_strip (n : Numeral) : n.strip.value = n.value := by
  fun_induction Numeral.strip n with
  | case1 n h hlt ih =>
    have hdigits : (n.digits : ℝ) = (n.digits / 10 : ℕ) * 10 := by
      exact_mod_cast (Nat.div_mul_cancel (Nat.dvd_of_mod_eq_zero h.2)).symm
    rw [ih, value, value, hdigits, zpow_add_one₀ (by norm_num)]
    ring
  | case2 n h => rfl

namespace Magnitude

variable {x : Magnitude}

/-- Written out with all its digits, a size is exact. -/
theorem value_exactNumeral (x : Magnitude) : x.exactNumeral.value = x.value := by
  unfold exactNumeral
  split
  next hneg =>
    obtain ⟨n, hn⟩ := Int.exists_eq_neg_ofNat hneg.le
    have hten : (10 : ℝ) ^ n = 5 ^ n * 2 ^ n := by
      rw [← mul_pow]
      norm_num
    rw [Numeral.value, value, dyadic, hn, neg_neg, Int.toNat_natCast, Nat.pow_eq, Nat.cast_mul,
      Nat.cast_pow, Nat.cast_ofNat, zpow_neg, zpow_neg, zpow_natCast, zpow_natCast, hten]
    field_simp
  next hnonneg =>
    obtain ⟨n, hn⟩ := Int.eq_ofNat_of_zero_le (not_lt.mp hnonneg)
    rw [Numeral.value, value, dyadic, hn, Int.toNat_natCast, Nat.pow_eq, Nat.cast_mul, Nat.cast_pow,
      Nat.cast_ofNat, zpow_zero, mul_one, zpow_natCast]

/-- **The shortest numeral lies in the interval,** whatever the search has found. -/
theorem reaches_shortest (hpos : 0 < x.significand) : x.Reaches x.shortest.value := by
  unfold shortest
  rw [Numeral.value_strip]
  cases hfound : x.grids.findSome? fun k ↦ (x.nearestOn k).map fun d ↦ (⟨d, k⟩ : Numeral) with
  | none =>
    rw [Option.getD_none, value_exactNumeral]
    exact x.reaches_value
  | some n =>
    obtain ⟨k, -, hk⟩ := List.exists_of_findSome?_eq_some hfound
    obtain ⟨d, hd, rfl⟩ := Option.map_eq_some_iff.mp hk
    exact reaches_of_readsBack hpos (readsBack_of_nearestOn hd)

end Magnitude

/-! ### Doubles -/

variable {x : Float} {n : SignedNumeral}

/-- A finite double other than zero is read as its sign and a magnitude that tells its size. -/
theorem exists_magnitude {s : Sign} {m : ℕ} {e : ℤ} {hm : 0 < m}
    (h : x.toModel.unpack = .finite s m e hm) :
    ∃ y : Magnitude, Reading.ofFloat x = .finite (s == .negative) y ∧ y.IsDouble ∧
      valueOf x = some (Binary.signed s y.value) := by
  have hrepresentable := representable_double x
  rw [h] at hrepresentable
  refine ⟨⟨m, e, decide (m = 0x10000000000000) && decide (Format.binary64.minExponent < e)⟩,
    ?_, ⟨hm, hrepresentable.1, hrepresentable.2, ?_⟩, ?_⟩
  · rw [Reading.ofFloat, h]
  · rw [Bool.and_eq_true, decide_eq_true_iff, decide_eq_true_iff]
    rfl
  · rw [valueOf, h]
    rfl

namespace SignedNumeral

/-- A numeral with a sign has the value of the one without, on that side. -/
theorem value_eq_onSide (s : Sign) (n : Numeral) :
    value ⟨s == .negative, n⟩ = onSide s n.value := by
  cases s <;> rfl

/-- **A finite double is read back from its numeral.** -/
theorem toFloat_of_ofFloat? (h : ofFloat? x = some n) : n.toFloat = x := by
  unfold ofFloat? at h
  rcases hx : x.toModel.unpack with s | - | s | ⟨s, m, e, hm⟩
  case infinity | notANumber =>
    rw [Reading.ofFloat, hx] at h
    cases h
  case zero =>
    rw [Reading.ofFloat, hx] at h
    obtain rfl := Option.some.inj h
    refine (eq_of_unpack_eq (congrArg UnpackedFloat.isNaN hx) ?_).symm
    rw [hx]
    cases s <;> rfl
  case finite =>
    obtain ⟨y, hy, hdouble, hvalue⟩ := exists_magnitude hx
    rw [hy] at h
    obtain rfl := Option.some.inj h
    have hread := roundsTo_toFloat ⟨s == .negative, y.shortest⟩
    rw [value_eq_onSide] at hread
    have hrounds : RoundsTo (onSide s y.shortest.value) x :=
      ⟨s, _, _, coe_onSide s _, hvalue, (Magnitude.reaches_shortest hdouble.pos).rounds hdouble⟩
    refine (eq_or_zeros_of_beq (hread.beq hrounds)).resolve_right fun hzero ↦ ?_
    obtain ⟨t, ht⟩ := beq_zero_iff.mp hzero.2
    rw [hx] at ht
    cases ht

/-- The finite doubles are those that have a numeral. -/
theorem exists_ofFloat?_iff : (∃ n, ofFloat? x = some n) ↔ x.isFinite = true := by
  show _ ↔ x.toModel.unpack.isFinite = true
  unfold ofFloat? Reading.ofFloat
  rcases x.toModel.unpack with s | - | s | ⟨s, m, e, hm⟩ <;> simp [UnpackedFloat.isFinite]

end SignedNumeral

end Geospatial.Decimal
