import Geospatial.Proofs.Binary.Value

/-!
# Rounding to nearest

Rounding works on bits: it shifts a mantissa to the right one place at a time, keeps the last bit
that was shifted out and whether any before it was set, and rounds by those two. Here it is seen to
round the number that the mantissa tells to a nearest whole number of units, and to an even one
where two are as near (`exists_round`). The unit is the one that the format has for numbers of this
size.

**The two kept bits tell the number well enough.** `Tells` says what is known of a number from a
mantissa and the two bits; one shift halves the number (`Tells.shiftRightOne`), any number of shifts
does so as often (`Tells.shiftRight`), and whatever number is told, the rounded mantissa is nearest
to it (`Tells.isNearest`).

**Nearest is monotone** (`IsNearest.mono`), although ties are broken: two numbers in order would
have to meet in the middle to be rounded the other way round, and then they are rounded alike. Two
numbers of different sizes are rounded in different units, but a power of two that is a whole number
of either lies between them (`HasUnit.nearest_mono`).
-/

namespace Geospatial.Binary

open Float.Model (Format UnpackedFloat totalExponent)
open Float.Model.UnpackedFloat

/-! ### The nearest whole number -/

/-- No whole number is nearer, and where another one is as near this one is even. -/
structure IsNearest (x : ℝ) (r : ℕ) : Prop where
  lower : r - 1 / 2 ≤ x
  upper : x ≤ r + 1 / 2
  even (h : x = r - 1 / 2 ∨ x = r + 1 / 2) : Even r

/-- A number that is strictly within half a unit is rounded without a tie. -/
theorem isNearest_of_lt {x : ℝ} {r : ℕ} (hlower : r - 1 / 2 < x) (hupper : x < r + 1 / 2) :
    IsNearest x r where
  lower := hlower.le
  upper := hupper.le
  even h := by
    exfalso
    rcases h with h | h <;> linarith

theorem isNearest_natCast (r : ℕ) : IsNearest r r :=
  isNearest_of_lt (by linarith) (by linarith)

/-- Halfway between two neighbours the even one is nearest. -/
theorem isNearest_half (m : ℕ) : IsNearest (m + 1 / 2) (m + m % 2) := by
  have heven : Even (m + m % 2) := by
    rw [Nat.even_iff]
    omega
  rcases Nat.mod_two_eq_zero_or_one m with hmod | hmod <;> rw [hmod] at heven ⊢
  · exact ⟨by push_cast; linarith, by push_cast; linarith, fun _ ↦ heven⟩
  · exact ⟨by push_cast; linarith, by push_cast; linarith, fun _ ↦ heven⟩

/-- Every size has a nearest natural number, of the two around it the even one in a tie. -/
theorem exists_isNearest {x : ℝ} (hx : 0 ≤ x) : ∃ r, IsNearest x r := by
  have hfloor := Nat.floor_le hx
  have hnext := Nat.lt_floor_add_one x
  rcases lt_trichotomy x (⌊x⌋₊ + 1 / 2) with hlt | heq | hgt
  · exact ⟨⌊x⌋₊, isNearest_of_lt (by linarith) hlt⟩
  · exact ⟨⌊x⌋₊ + ⌊x⌋₊ % 2, by simpa only [← heq] using isNearest_half ⌊x⌋₊⟩
  · exact ⟨⌊x⌋₊ + 1, isNearest_of_lt (by push_cast; linarith) (by push_cast; linarith)⟩

/-- **Numbers in order are rounded in order.** -/
theorem IsNearest.mono {x y : ℝ} {r s : ℕ} (hx : IsNearest x r) (hy : IsNearest y s)
    (h : x ≤ y) : r ≤ s := by
  by_contra hlt
  have hsucc : (s : ℝ) + 1 ≤ r := mod_cast Nat.succ_le_of_lt (not_le.mp hlt)
  have hlower := hx.lower
  have hupper := hy.upper
  -- the two numbers are one, halfway between two neighbours that would both be even
  have hr := hx.even (Or.inl (by linarith))
  have hs := hy.even (Or.inr (by linarith))
  have hnext : r = s + 1 := by
    have heq : (r : ℝ) = s + 1 := by linarith
    exact_mod_cast heq
  rw [hnext, Nat.even_add_one] at hr
  exact hr hs

/-! ### Shifting -/

/-- The number is the mantissa and a half where the round bit is set, and a rest of less than a half
that the sticky bit tells from zero. -/
inductive Tells (em : ExtendedMantissa) (x : ℝ) : Prop
  | intro (rest : ℝ) (eq : x = em.mantissa + (if em.roundBit then 1 / 2 else 0) + rest)
      (bounds : 0 ≤ rest ∧ rest < 1 / 2) (sticky : em.stickyBit = true ↔ 0 < rest)

theorem tells_exact (m : ℕ) : Tells ⟨m, false, false⟩ m :=
  ⟨0, by simp, by norm_num, by simp⟩

/-- What was cut off is less than one unit. -/
theorem Tells.bounds {em : ExtendedMantissa} {x : ℝ} (h : Tells em x) :
    em.mantissa ≤ x ∧ x < em.mantissa + 1 := by
  obtain ⟨m, round, sticky⟩ := em
  obtain ⟨rest, rfl, ⟨hrest, hrest'⟩, -⟩ := h
  cases round <;> simp <;> constructor <;> linarith

/-- A quotient is told by its whole part and by what the remainder is compared with half a
divisor. -/
theorem tells_quotient (num : ℕ) {den : ℕ} (hden : 0 < den) :
    Tells (.ofMantissaAndAccuracy (num / den) (accuracyOfFraction (num % den) den))
      (num / den : ℝ) := by
  have hpos : (0 : ℝ) < den := mod_cast hden
  have hlt : ((num % den : ℕ) : ℝ) < den := mod_cast Nat.mod_lt num hden
  have hsplit : (num : ℝ) / den = (num / den : ℕ) + (num % den : ℕ) / den := by
    have hnum : (num : ℝ) = den * (num / den : ℕ) + (num % den : ℕ) :=
      mod_cast (Nat.div_add_mod num den).symm
    rw [hnum, add_div, mul_div_cancel_left₀ _ hpos.ne']
  rw [hsplit]
  generalize num / den = q, num % den = rest at hlt ⊢
  have hbounds : (0 : ℝ) ≤ rest / den ∧ (rest : ℝ) / den < 1 :=
    ⟨by positivity, (div_lt_one hpos).mpr hlt⟩
  unfold accuracyOfFraction
  rcases Nat.eq_zero_or_pos rest with rfl | hrest
  · rw [if_pos rfl]
    exact ⟨0, by simp [ExtendedMantissa.ofMantissaAndAccuracy], by norm_num,
      by simp [ExtendedMantissa.ofMantissaAndAccuracy]⟩
  have hrest' : (0 : ℝ) < rest / den := by positivity
  rw [if_neg hrest.ne']
  -- what is left over is short of half a unit, half of it or more
  rcases lt_trichotomy (2 * rest) den with hcompare | hcompare | hcompare
  · have hhalf : (rest : ℝ) / den < 1 / 2 := by
      rw [div_lt_div_iff₀ hpos two_pos]
      exact_mod_cast (by omega : rest * 2 < 1 * den)
    rw [Nat.compare_eq_lt.mpr hcompare]
    exact ⟨rest / den, by simp [ExtendedMantissa.ofMantissaAndAccuracy], ⟨hbounds.1, hhalf⟩,
      by simpa [ExtendedMantissa.ofMantissaAndAccuracy] using hrest'⟩
  · have hhalf : (rest : ℝ) / den = 1 / 2 := by
      rw [div_eq_div_iff hpos.ne' two_ne_zero]
      exact_mod_cast (by omega : rest * 2 = 1 * den)
    rw [Nat.compare_eq_eq.mpr hcompare, hhalf]
    exact ⟨0, by simp [ExtendedMantissa.ofMantissaAndAccuracy], by norm_num,
      by simp [ExtendedMantissa.ofMantissaAndAccuracy]⟩
  · have hhalf : 1 / 2 < (rest : ℝ) / den := by
      rw [div_lt_div_iff₀ two_pos hpos]
      exact_mod_cast (by omega : 1 * den < rest * 2)
    rw [Nat.compare_eq_gt.mpr hcompare]
    refine ⟨rest / den - 1 / 2, by simp [ExtendedMantissa.ofMantissaAndAccuracy],
      ⟨by linarith, by linarith⟩, ?_⟩
    simpa [ExtendedMantissa.ofMantissaAndAccuracy] using hhalf

/-- A shift by one place halves the number. -/
theorem Tells.shiftRightOne {em : ExtendedMantissa} {x : ℝ} (h : Tells em x) :
    Tells em.shiftRightOne (x / 2) := by
  obtain ⟨m, round, sticky⟩ := em
  obtain ⟨rest, rfl, ⟨hrest, hrest'⟩, hsticky⟩ := h
  have hhalf : (m : ℝ) = 2 * (m / 2 : ℕ) + (m % 2 : ℕ) := mod_cast (Nat.div_add_mod m 2).symm
  refine ⟨(if round then 1 / 4 else 0) + rest / 2, ?_, ?_, ?_⟩
  · rcases Nat.mod_two_eq_zero_or_one m with hmod | hmod <;> rw [hmod] at hhalf <;>
      cases round <;> simp [ExtendedMantissa.shiftRightOne, hmod, hhalf] <;> ring
  · cases round <;> simp <;> constructor <;> linarith
  · cases round
    · simpa [ExtendedMantissa.shiftRightOne] using hsticky
    · simp [ExtendedMantissa.shiftRightOne]
      linarith

/-- Digit by digit, any number of them can be cut off. -/
theorem Tells.shiftRight {em : ExtendedMantissa} {x : ℝ} (h : Tells em x) (k : ℕ) :
    Tells (em >>> k) (x / 2 ^ k) := by
  show Tells (k.repeat ExtendedMantissa.shiftRightOne em) _
  induction k with
  | zero => simpa [Nat.repeat] using h
  | succ k ih =>
    rw [Nat.repeat, pow_succ, ← div_div]
    exact ih.shiftRightOne

/-- **Whatever number is told, the rounded mantissa is nearest to it.** -/
theorem Tells.isNearest {em : ExtendedMantissa} {x : ℝ} (h : Tells em x) :
    IsNearest x em.roundedMantissa := by
  obtain ⟨m, round, sticky⟩ := em
  obtain ⟨rest, rfl, ⟨hrest, hrest'⟩, hsticky⟩ := h
  cases sticky with
  | false =>
    -- nothing is left over: the number is the mantissa, or halfway to the next one
    obtain rfl : rest = 0 := by
      refine le_antisymm (not_lt.mp fun hpos ↦ ?_) hrest
      exact Bool.false_ne_true (hsticky.mpr hpos)
    cases round with
    | false =>
      show IsNearest _ m
      simpa using isNearest_natCast m
    | true =>
      show IsNearest _ (m + m % 2)
      simpa using isNearest_half m
  | true =>
    have hpos := hsticky.mp rfl
    cases round with
    | false =>
      show IsNearest _ m
      exact isNearest_of_lt (by simp; linarith) (by simp; linarith)
    | true =>
      show IsNearest (m + 1 / 2 + rest) (m + 1)
      exact isNearest_of_lt (by push_cast; linarith) (by push_cast; linarith)

/-! ### Rounding to a format -/

variable {spec : Format} {m : ℕ} {e t : ℤ} {a : Accuracy} {x : ℝ}

/-- A number in units of one exponent, and of a smaller one. -/
theorem div_zpow_eq (x : ℝ) (h : e ≤ t) : x / 2 ^ t = x / 2 ^ e / 2 ^ (t - e).toNat := by
  have ht : t = e + ((t - e).toNat : ℤ) := by omega
  rw [div_div, ← zpow_natCast, ← zpow_add₀ two_ne_zero, ← ht]

theorem dyadic_div_self (m : ℕ) (e : ℤ) : dyadic m e / 2 ^ e = m :=
  mul_div_cancel_right₀ _ (zpow_ne_zero e two_ne_zero)

/-- However the exponent is raised, rounding looks at the whole value. -/
theorem isNearest_shiftToExponent (hx : Tells (.ofMantissaAndAccuracy m a) (x / 2 ^ e))
    (h : e ≤ t) : IsNearest (x / 2 ^ t) (shiftToExponent m e a t).1.roundedMantissa := by
  rw [div_zpow_eq x h]
  exact (hx.shiftRight _).isNearest

/-- A power of two in units. -/
theorem two_pow_mul_zpow (k : ℕ) (t : ℤ) : ((2 ^ k : ℕ) : ℝ) * 2 ^ t = 2 ^ (k + t) := by
  rw [Nat.cast_pow, Nat.cast_ofNat, ← zpow_natCast, ← zpow_add₀ two_ne_zero]

/-- The exponent is the one that the format has for numbers whose first digit stands where that of
this number does. -/
inductive HasUnit (spec : Format) (x : ℝ) (t : ℤ) : Prop
  | intro (digits : ℤ) (lower : 2 ^ (digits - 1) ≤ x) (upper : x < 2 ^ digits)
      (target : spec.targetExponent digits = t)

/-- A size that is written with digits has the unit that its digits ask for. -/
theorem hasUnit_dyadic (hm : 0 < m) (ht : spec.targetExponent (totalExponent m e) = t) :
    HasUnit spec (dyadic m e) t :=
  ⟨totalExponent m e, le_dyadic hm e, dyadic_lt m e, ht⟩

/-- A number takes no more units than the format has mantissas, and at least half as many unless the
unit is the least one. -/
theorem HasUnit.bounds {x : ℝ} {r : ℕ} (hx : HasUnit spec x t) (hr : IsNearest (x / 2 ^ t) r) :
    r ≤ 2 ^ spec.mantissaBits ∧
      (spec.minExponent < t → 2 ^ spec.mantissaBitsWithoutImplicit ≤ r) := by
  obtain ⟨digits, hlower, hupper, ht⟩ := hx
  unfold Format.targetExponent at ht
  have hbits : spec.mantissaBits = spec.mantissaBitsWithoutImplicit + 1 := Nat.add_comm ..
  have hunit : (0 : ℝ) < 2 ^ t := zpow_pos two_pos t
  constructor
  · refine hr.mono (isNearest_natCast _) ((div_le_iff₀ hunit).mpr ?_)
    rw [two_pow_mul_zpow]
    exact hupper.le.trans (zpow_le_zpow_right₀ one_le_two (by omega))
  · intro hleast
    refine (isNearest_natCast _).mono hr ((le_div_iff₀ hunit).mpr ?_)
    rw [two_pow_mul_zpow]
    exact (zpow_le_zpow_right₀ one_le_two (by omega)).trans hlower

/-- Rounding up may fill one digit too many; then the next exponent tells the same number. -/
theorem exists_canonical {r : ℕ} (hr : 0 < r) (hle : r ≤ 2 ^ spec.mantissaBits)
    (hmin : spec.minExponent ≤ t)
    (hfull : spec.minExponent < t → 2 ^ spec.mantissaBitsWithoutImplicit ≤ r) :
    ∃ (n : ℕ) (f : ℤ) (k : ℕ), 0 < n ∧ Canonical spec n f ∧ r = n * 2 ^ k ∧ t = f - k := by
  have hbits : 2 ^ spec.mantissaBits = 2 ^ spec.mantissaBitsWithoutImplicit * 2 := by
    rw [Format.mantissaBits, Nat.pow_add, Nat.pow_one, Nat.mul_comm]
  rcases hle.lt_or_eq with hlt | rfl
  · refine ⟨r, t, 0, hr, (canonical_iff hr).mpr ?_, by simp, by simp⟩
    by_cases hsmall : r < 2 ^ spec.mantissaBitsWithoutImplicit
    · -- with fewer digits the unit is the least one
      have hleast : ¬spec.minExponent < t := fun h ↦ (hfull h).not_gt hsmall
      exact Or.inr ⟨hsmall, by omega⟩
    · exact Or.inl ⟨(Nat.log2_eq_iff hr.ne').mpr ⟨by omega, by rw [Nat.pow_succ]; omega⟩, hmin⟩
  -- rounding up may have added a digit, which is a zero at the end
  · have hpos : 0 < 2 ^ spec.mantissaBitsWithoutImplicit := Nat.two_pow_pos _
    have hcanonical : Canonical spec (2 ^ spec.mantissaBitsWithoutImplicit) (t + 1) :=
      (canonical_iff hpos).mpr (Or.inl ⟨Nat.log2_two_pow, by omega⟩)
    exact ⟨_, t + 1, 1, hpos, hcanonical, hbits, by simp⟩

/-- **A mantissa that tells a number tells its unit,** even where it is zero: then the number is
below the least unit. -/
theorem HasUnit.target_eq (hx : HasUnit spec x t) (he : e ≤ t)
    (hm : Tells (.ofMantissaAndAccuracy m a) (x / 2 ^ e)) :
    spec.targetExponent (totalExponent m e) = t := by
  obtain ⟨digits, hlower, hupper, ht⟩ := hx
  have hunit : (0 : ℝ) < 2 ^ e := zpow_pos two_pos e
  obtain ⟨hbelow, habove⟩ := hm.bounds
  rw [mantissa_ofMantissaAndAccuracy, le_div_iff₀ hunit] at hbelow
  rw [mantissa_ofMantissaAndAccuracy, div_lt_iff₀ hunit] at habove
  rcases Nat.eq_zero_or_pos m with rfl | hpos
  · rw [Nat.cast_zero, zero_add, one_mul] at habove
    have hdigits : digits - 1 < e :=
      (zpow_lt_zpow_iff_right₀ one_lt_two).mp (hlower.trans_lt habove)
    unfold Format.targetExponent totalExponent Format.mantissaBits at *
    rw [Nat.log2_zero]
    omega
  · -- the number has its first digit where the mantissa has
    have hnext : ((m : ℝ) + 1) * 2 ^ e ≤ 2 ^ totalExponent m e := by
      have hle : ((m : ℝ) + 1) ≤ (2 : ℝ) ^ (m.log2 + 1) :=
        mod_cast (Nat.lt_log2_self : m < 2 ^ (m.log2 + 1))
      rw [totalExponent, zpow_add₀ two_ne_zero]
      exact mul_le_mul_of_nonneg_right (mod_cast hle) hunit.le
    have hfirst : totalExponent m e - 1 < digits :=
      (zpow_lt_zpow_iff_right₀ one_lt_two).mp ((le_dyadic hpos e).trans_lt (hbelow.trans_lt hupper))
    have hlast : digits - 1 < totalExponent m e :=
      (zpow_lt_zpow_iff_right₀ one_lt_two).mp (hlower.trans_lt (habove.trans_le hnext))
    rw [← ht, show totalExponent m e = digits by omega]

/-- The first shift reaches the exponent of the format. -/
theorem shiftToTargetExponent_eq (ht : spec.targetExponent (totalExponent m e) = t) (he : e ≤ t) :
    shiftToTargetExponent spec m e a = ((shiftToExponent m e a t).1, t) := by
  have hreached : e + ((t - e).toNat : ℤ) = t := by omega
  rw [shiftToTargetExponent, ht]
  exact Prod.ext rfl hreached

/-- Nothing becomes something by being shifted. -/
theorem mantissa_shiftToTargetExponent_zero (t : ℤ) :
    (shiftToTargetExponent spec 0 t .exact).1.mantissa = 0 := by
  simp only [shiftToTargetExponent, shiftToExponent, mantissa_shiftRight,
    mantissa_ofMantissaAndAccuracy, Nat.zero_div]

/-- **What rounding gives:** nothing, or the nearest number of units, told in canonical form. -/
theorem exists_roundWithAccuracy (s : Sign) (hx : HasUnit spec x t) (he : e ≤ t)
    (hm : Tells (.ofMantissaAndAccuracy m a) (x / 2 ^ e)) :
    ∃ r : ℕ, IsNearest (x / 2 ^ t) r ∧
      (r = 0 ∧ roundWithAccuracy spec s m e a = .zero s ∨
        ∃ n f hn, roundWithAccuracy spec s m e a = .finite s n f hn ∧ Canonical spec n f ∧
          dyadic n f = r * 2 ^ t) := by
  obtain ⟨em, hem⟩ : ∃ em, (shiftToExponent m e a t).1 = em := ⟨_, rfl⟩
  have ht := hx.target_eq he hm
  have hnearest := isNearest_shiftToExponent hm he
  rw [hem] at hnearest
  have hbounds := hx.bounds hnearest
  have hfirst := shiftToTargetExponent_eq (a := a) ht he
  rw [hem] at hfirst
  refine ⟨em.roundedMantissa, hnearest, ?_⟩
  -- rounding shifts twice; the second time there is nothing to be shifted unless a digit was added
  rcases Nat.eq_zero_or_pos em.roundedMantissa with hzero | hpos
  · refine Or.inl ⟨hzero, ?_⟩
    simp only [roundWithAccuracy, hfirst, hzero]
    exact dif_pos (mantissa_shiftToTargetExponent_zero t)
  · have hmin : spec.minExponent ≤ t := ht ▸ le_max_right _ _
    obtain ⟨n, f, k, hn, hcanonical, hr, rfl⟩ :=
      exists_canonical hpos hbounds.1 hmin hbounds.2
    have hsecond := shiftToTargetExponent_mul hn hcanonical k
    refine Or.inr ⟨n, f, hn, ?_, hcanonical, ?_⟩
    · simp only [roundWithAccuracy, hfirst, hr, hsecond]
      exact dif_neg hn.ne'
    · rw [hr, ← dyadic_mul_two_pow n k f]
      rfl

/-- **Rounding to a format is rounding to nearest,** in the unit that the format has for numbers of
this size. -/
theorem exists_round (s : Sign) (hm : 0 < m)
    (ht : spec.targetExponent (totalExponent m e) = t) :
    ∃ r : ℕ, IsNearest (dyadic m e / 2 ^ t) r ∧
      (r = 0 ∧ UnpackedFloat.round spec s m e = .zero s ∨
        ∃ n f hn, UnpackedFloat.round spec s m e = .finite s n f hn ∧ Canonical spec n f ∧
          dyadic n f = r * 2 ^ t) := by
  have hunit := hasUnit_dyadic hm ht
  have htells := tells_exact (m * 2 ^ (e - t).toNat)
  rw [← dyadic_mul_two_pow m (e - t).toNat e] at hunit
  rw [← dyadic_div_self (m * 2 ^ (e - t).toNat) (e - (e - t).toNat)] at htells
  have hround := exists_roundWithAccuracy s (a := .exact) hunit (by omega) htells
  rw [dyadic_mul_two_pow] at hround
  simpa only [UnpackedFloat.round, ht, decreaseExponent, Nat.shiftLeft_eq] using hround

/-- **Rounding in units of a format is monotone,** in one unit and across two. -/
theorem HasUnit.nearest_mono {x y : ℝ} {u : ℤ} {r n : ℕ} (hx : HasUnit spec x t)
    (hr : IsNearest (x / 2 ^ t) r) (hy : HasUnit spec y u) (hn : IsNearest (y / 2 ^ u) n)
    (h : x ≤ y) : r * (2 : ℝ) ^ t ≤ n * 2 ^ u := by
  have hmost := (hx.bounds hr).1
  have hleast := (hy.bounds hn).2
  obtain ⟨digits, hlower, -, ht⟩ := hx
  obtain ⟨digits', -, hupper, hu⟩ := hy
  have hdigits : digits - 1 < digits' :=
    (zpow_lt_zpow_iff_right₀ one_lt_two).mp (hlower.trans_lt (h.trans_lt hupper))
  have hle : t ≤ u := by
    unfold Format.targetExponent at ht hu
    omega
  -- under a greater unit a value has all its digits, and so it is beyond every one under a lesser
  rcases hle.lt_or_eq with hlt | rfl
  · have hmin : spec.minExponent ≤ t := ht ▸ le_max_right _ _
    have hbits : spec.mantissaBits = spec.mantissaBitsWithoutImplicit + 1 := Nat.add_comm ..
    have hr' : (r : ℝ) ≤ (2 ^ spec.mantissaBits : ℕ) := mod_cast hmost
    have hn' : ((2 ^ spec.mantissaBitsWithoutImplicit : ℕ) : ℝ) ≤ n := mod_cast hleast (by omega)
    calc r * (2 : ℝ) ^ t
      _ ≤ (2 ^ spec.mantissaBits : ℕ) * 2 ^ t := by gcongr
      _ = 2 ^ (spec.mantissaBits + t) := two_pow_mul_zpow _ t
      _ ≤ 2 ^ (spec.mantissaBitsWithoutImplicit + u) :=
        zpow_le_zpow_right₀ one_le_two (by omega)
      _ = (2 ^ spec.mantissaBitsWithoutImplicit : ℕ) * 2 ^ u := (two_pow_mul_zpow _ u).symm
      _ ≤ n * 2 ^ u := by gcongr
  · have hrn : (r : ℝ) ≤ n := mod_cast hr.mono hn (by gcongr)
    gcongr

end Geospatial.Binary
