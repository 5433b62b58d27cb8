import Geospatial.Proofs.Binary.Representation

/-!
# Nothing positive vanishes

The difference of two doubles in order is positive, however close they are (`zero_lt_sub`), and so
is the diagonal over two positive sides (`zero_lt_floatHypotenuse`). That is all that a distance
asks of the arithmetic of doubles, and it makes `Float` a `GradualOrdinate`.

Both come down to rounding. A value whose exponent is at least the least one of its format loses
digits only where it has more of them than the format, so its first digit stays
(`positive_roundWithAccuracy`). What is rounded here always has such an exponent: a difference is
told by the smaller exponent of its terms, and a root by half an exponent of squares.

**Positive is said of values before they are packed.** `Positive` asks for no upper bound on the
exponent, since a value that is too large is packed as an infinity and stays positive
(`positive_unpack_pack`).
-/

namespace Geospatial.Binary

open Float.Model (Format UnpackedFloat totalExponent)
open Float.Model.UnpackedFloat

/-- Positive, with no more digits than the format has and an exponent that is not below its
least. -/
def Positive (spec : Format) : UnpackedFloat → Prop
  | .infinity .positive => True
  | .finite .positive m e _ => m < 2 ^ spec.mantissaBits ∧ spec.minExponent ≤ e
  | _ => False

variable {spec : Format} {m : Nat} {e : Int}

/-! ### Rounding -/

theorem mantissa_shiftRight (em : ExtendedMantissa) (k : Nat) :
    (em >>> k).mantissa = em.mantissa / 2 ^ k := by
  show (k.repeat ExtendedMantissa.shiftRightOne em).mantissa = _
  induction k with
  | zero => rw [Nat.pow_zero, Nat.div_one, Nat.repeat]
  | succ k ih =>
    rw [Nat.repeat, ExtendedMantissa.shiftRightOne, ih, Nat.div_div_eq_div_mul, Nat.pow_succ]

theorem mantissa_ofMantissaAndAccuracy (m : Nat) (a : Accuracy) :
    (ExtendedMantissa.ofMantissaAndAccuracy m a).mantissa = m := by
  rcases a with _ | (_ | _ | _) <;> rfl

theorem le_roundedMantissa (em : ExtendedMantissa) : em.mantissa ≤ em.roundedMantissa := by
  rcases em with ⟨m, _ | _, _ | _⟩ <;>
    simp only [ExtendedMantissa.roundedMantissa, ExtendedMantissa.accuracy,
      Accuracy.roundToNearestEven] <;>
    omega

/-- Shifting drops no more digits than the mantissa has beyond those of the format. -/
theorem bounds_shiftToTargetExponent (hm : 0 < m) (he : spec.minExponent ≤ e) (a : Accuracy) :
    let s := shiftToTargetExponent spec m e a
    0 < s.1.mantissa ∧ s.1.mantissa < 2 ^ spec.mantissaBits ∧ spec.minExponent ≤ s.2 := by
  obtain ⟨k, hk⟩ : ∃ k, (spec.targetExponent (totalExponent m e) - e).toNat = k := ⟨_, rfl⟩
  -- as many digits are shifted out as there are too many, and no more
  have hamount : m.log2 + 1 ≤ spec.mantissaBits + k ∧ k ≤ m.log2 := by
    unfold Format.targetExponent totalExponent Format.mantissaBits at *
    omega
  have hfirst : 2 ^ k ≤ m :=
    (Nat.pow_le_pow_right Nat.two_pos hamount.2).trans (Nat.log2_self_le hm.ne')
  have hlast : m < 2 ^ spec.mantissaBits * 2 ^ k := by
    rw [← Nat.pow_add]
    exact Nat.lt_log2_self.trans_le (Nat.pow_le_pow_right Nat.two_pos hamount.1)
  simp only [shiftToTargetExponent, shiftToExponent, hk, mantissa_shiftRight,
    mantissa_ofMantissaAndAccuracy]
  exact ⟨Nat.div_pos hfirst (Nat.two_pow_pos k),
    (Nat.div_lt_iff_lt_mul (Nat.two_pow_pos k)).mpr hlast, by omega⟩

/-- **Rounding keeps a positive value positive** that is told by an exponent of the format. -/
theorem positive_roundWithAccuracy (hm : 0 < m) (he : spec.minExponent ≤ e) (a : Accuracy) :
    Positive spec (roundWithAccuracy spec .positive m e a) := by
  have hfirst := bounds_shiftToTargetExponent hm he a
  -- rounding up may add a digit, which is shifted out once more
  have hrounded := hfirst.1.trans_le (le_roundedMantissa _)
  have hsecond := bounds_shiftToTargetExponent hrounded hfirst.2.2 .exact
  unfold roundWithAccuracy
  simp only [dif_neg hsecond.1.ne']
  exact hsecond.2

theorem decreaseExponent_pos (hm : 0 < m) (e low : Int) : 0 < (decreaseExponent m e low).1 := by
  rw [decreaseExponent, Nat.shiftLeft_eq]
  exact Nat.mul_pos hm (Nat.two_pow_pos _)

/-- **A positive size is not rounded to zero**, as long as its exponent is in range. -/
theorem positive_round (hm : 0 < m) (he : spec.minExponent ≤ e) :
    Positive spec (UnpackedFloat.round spec .positive m e) := by
  have htarget : spec.minExponent ≤ spec.targetExponent (totalExponent m e) := le_max_right _ _
  exact positive_roundWithAccuracy (decreaseExponent_pos hm e _) (by omega) .exact

/-- So neither is a positive sum. -/
theorem positive_normalize {k : Int} (hk : 0 < k) (he : spec.minExponent ≤ e) (s : Sign) :
    Positive spec (UnpackedFloat.normalize spec k e s) := by
  rw [UnpackedFloat.normalize, Int.compare_eq_gt.mpr hk]
  exact positive_round (by omega) he

/-! ### Packing -/

/-- Canonical digits fit the format, and so does their exponent. -/
theorem Canonical.bounds (h : Canonical spec m e) (hm : 0 < m) :
    m < 2 ^ spec.mantissaBits ∧ spec.minExponent ≤ e := by
  have hleast : spec.minExponent ≤ e := by
    rw [← h, Format.targetExponent]
    exact le_max_right _ _
  have hdigits : m.log2 < spec.mantissaBits := by
    unfold Canonical Format.targetExponent totalExponent at h
    omega
  exact ⟨(Nat.log2_lt hm.ne').mp hdigits, hleast⟩

/-- **Packing keeps a positive value positive**, within the range of the format or beyond it. -/
theorem positive_unpack_pack {f : UnpackedFloat} (hf : Positive spec f) :
    Positive spec (unpack spec (pack spec f)) := by
  rcases f with (_ | _) | - | s | ⟨_ | _, m, e, hm⟩
  case infinity.positive =>
    rw [pack, unpack_packedInfinity]
    trivial
  case finite.positive =>
    obtain ⟨hlt, hleast⟩ := hf
    have hmin := minExponent_add spec
    have hcount := two_pow_exponentBits spec
    rw [← Nat.log2_lt hm.ne', Format.mantissaBits] at hlt
    -- a value beyond the range is packed as infinite, which is positive too
    by_cases hrange : e + spec.mantissaBitsWithoutImplicit ≤ spec.exponentBias
    · by_cases hlog : m.log2 = spec.mantissaBitsWithoutImplicit
      · rw [pack_normal _ hm hlog hrange, unpack_normal _ hm hlog hleast hrange]
        exact ((canonical_iff hm).mpr (Or.inl ⟨hlog, hleast⟩)).bounds hm
      · have hfew : m < 2 ^ spec.mantissaBitsWithoutImplicit :=
          (Nat.log2_lt hm.ne').mp (by omega)
        have hdigits : m.log2 + 1 ≠ spec.mantissaBits := by
          unfold Format.mantissaBits
          omega
        rw [pack, if_neg (by omega), if_neg hdigits, unpack_subnormal _ hm hfew]
        exact ((canonical_iff hm).mpr (Or.inr ⟨hfew, rfl⟩)).bounds hm
    · rw [pack, if_pos (by omega), unpack_packedInfinity]
      trivial
  all_goals exact hf.elim

/-! ### Differences -/

/-- Of two values that a format has the smaller one has the smaller mantissa, once both are told by
one exponent. -/
theorem Canonical.decreaseExponent_lt {n : Nat} {f low : Int} (hme : Canonical spec m e)
    (hnf : Canonical spec n f) (hm : 0 < m) (hn : 0 < n) (hle : low ≤ e) (hle' : low ≤ f)
    (h : (compare e f).then (compare m n) = .lt) :
    (decreaseExponent m e low).1 < (decreaseExponent n f low).1 := by
  rw [Ordering.then_eq_lt, compare_lt_iff_lt, compare_eq_iff_eq, compare_lt_iff_lt] at h
  simp only [decreaseExponent, Nat.shiftLeft_eq]
  rcases h with hef | ⟨rfl, hmn⟩
  · -- the greater exponent is not the least, so the mantissa beside it has all its digits
    have hlog : n.log2 = spec.mantissaBitsWithoutImplicit := by
      rcases (canonical_iff hn).mp hnf with ⟨hlog, -⟩ | ⟨-, hmin⟩
      · exact hlog
      · have hleast := (hme.bounds hm).2
        omega
    have hdigits : m < 2 ^ spec.mantissaBitsWithoutImplicit * 2 := by
      have hlt := (hme.bounds hm).1
      rwa [Format.mantissaBits, Nat.add_comm, Nat.pow_succ] at hlt
    have hfull : 2 ^ spec.mantissaBitsWithoutImplicit ≤ n := hlog ▸ Nat.log2_self_le hn.ne'
    have hshift : 2 * 2 ^ (e - low).toNat ≤ 2 ^ (f - low).toNat := by
      rw [← Nat.pow_succ']
      exact Nat.pow_le_pow_right Nat.two_pos (by omega)
    calc m * 2 ^ (e - low).toNat
        < 2 ^ spec.mantissaBitsWithoutImplicit * 2 * 2 ^ (e - low).toNat :=
          Nat.mul_lt_mul_of_pos_right hdigits (Nat.two_pow_pos _)
      _ = 2 ^ spec.mantissaBitsWithoutImplicit * (2 * 2 ^ (e - low).toNat) := Nat.mul_assoc ..
      _ ≤ n * 2 ^ (f - low).toNat := Nat.mul_le_mul hfull hshift
  · exact Nat.mul_lt_mul_of_pos_right hmn (Nat.two_pow_pos _)

/-- A difference is told by an exponent of the format. -/
theorem minExponent_le_min {s t : Sign} {n : Nat} {f : Int} {hm : 0 < m} {hn : 0 < n}
    (ha : Representable spec (.finite s m e hm)) (hb : Representable spec (.finite t n f hn)) :
    spec.minExponent ≤ min f e :=
  le_min (hb.1.bounds hn).2 (ha.1.bounds hm).2

/-- **The difference of two values in order is positive.** -/
theorem positive_sub {a b : UnpackedFloat} (ha : Representable spec a) (hb : Representable spec b)
    (h : a.compare b = some .lt) : Positive spec (UnpackedFloat.sub spec b a) := by
  rcases a with (_ | _) | _ | s | ⟨_ | _, m, e, hm⟩ <;>
    rcases b with (_ | _) | _ | t | ⟨_ | _, n, f, hn⟩
  -- a term of zero leaves the other one, and two finite terms are told by the smaller exponent
  case zero.finite.positive => exact hb.1.bounds hn
  case finite.negative.zero => exact ha.1.bounds hm
  case finite.negative.finite.negative =>
    have hswap : ((compare e f).then (compare m n)).swap = .lt := Option.some.inj h
    rw [Ordering.swap_then, Int.compare_swap, Nat.compare_swap] at hswap
    have hlt := hb.1.decreaseExponent_lt ha.1 hn hm (min_le_left f e) (min_le_right f e) hswap
    refine positive_normalize ?_ (minExponent_le_min ha hb) _
    show 0 < -((decreaseExponent n f (min f e)).1 : Int) -
      -((decreaseExponent m e (min f e)).1 : Int)
    omega
  case finite.negative.finite.positive =>
    have hpos := decreaseExponent_pos hm e (min f e)
    refine positive_normalize ?_ (minExponent_le_min ha hb) _
    show 0 < ((decreaseExponent n f (min f e)).1 : Int) -
      -((decreaseExponent m e (min f e)).1 : Int)
    omega
  case finite.positive.finite.positive =>
    have hlt := ha.1.decreaseExponent_lt hb.1 hm hn (min_le_right f e) (min_le_left f e)
      (Option.some.inj h)
    refine positive_normalize ?_ (minExponent_le_min ha hb) _
    show 0 < ((decreaseExponent n f (min f e)).1 : Int) -
      ((decreaseExponent m e (min f e)).1 : Int)
    omega
  -- infinities decide without rounding, and every other pair is not in order
  all_goals first | exact trivial | exact nomatch h

/-! ### Diagonals -/

theorem alignTo_pos (hm : 0 < m) (low e : Int) : 0 < alignTo low m e := by
  rw [alignTo, Nat.shiftLeft_eq]
  exact Nat.mul_pos hm (Nat.two_pow_pos _)

/-- The root of a value that is told by an exponent of squares. -/
theorem sqrtCore_pos (hm : 0 < m) (he : spec.minExponent ≤ e) :
    0 < (sqrtCore spec m (2 * e)).1 ∧ spec.minExponent ≤ (sqrtCore spec m (2 * e)).2.1 := by
  have htarget : spec.minExponent ≤
      spec.targetExponent ((totalExponent m (2 * e) + 1).ediv 2) := le_max_right _ _
  have hhalf : (2 * e).ediv 2 = e := Int.mul_ediv_cancel_left e (by decide)
  refine ⟨Nat.sqrt_pos.mpr ?_, ?_⟩
  · rw [Nat.shiftLeft_eq]
    exact Nat.mul_pos hm (Nat.two_pow_pos _)
  · show _ ≤ min ((2 * e).ediv 2) _
    rw [hhalf]
    exact le_min he htarget

/-- **The diagonal over two positive sides is positive.** -/
theorem positive_hypotenuse {a b : UnpackedFloat} (ha : Positive .binary64 a)
    (hb : Positive .binary64 b) : Positive .binary64 (hypotenuse a b) := by
  rcases a with (_ | _) | _ | s | ⟨_ | _, m, e, hm⟩ <;>
    rcases b with (_ | _) | _ | t | ⟨_ | _, n, f, hn⟩
  case finite.positive.finite.positive =>
    have hside : 0 < alignTo (min e f) m e := alignTo_pos hm _ e
    have hsquares : 0 < (sumOfSquares m e n f).1 :=
      Nat.add_pos_left (Nat.mul_pos hside hside) _
    have hroot := sqrtCore_pos hsquares (le_min ha.2 hb.2)
    exact positive_roundWithAccuracy hroot.1 hroot.2 _
  all_goals first | exact trivial | exact ha.elim | exact hb.elim

/-! ### Doubles -/

theorem representable_double (x : Float) : Representable .binary64 x.toModel.unpack :=
  representable_unpack (by decide) _

theorem lt_iff_compare {x y : Float} :
    x < y ↔ x.toModel.unpack.compare y.toModel.unpack = some .lt := by
  have hlt : x < y ↔ (x.toModel.compare y.toModel == some .lt) = true := decide_eq_true_iff
  rw [hlt, beq_iff_eq]
  rfl

/-- A double is greater than zero when it stands for a positive value. -/
theorem zero_lt_iff {x : Float} : 0.0 < x ↔ Positive .binary64 x.toModel.unpack := by
  have hx := representable_double x
  have hzero : (0.0 : Float).toModel.unpack = .zero .positive := rfl
  rw [lt_iff_compare, hzero]
  generalize x.toModel.unpack = u at hx ⊢
  rcases u with (_ | _) | _ | t | ⟨_ | _, n, f, hn⟩
  case infinity.positive => exact iff_of_true rfl trivial
  case finite.positive => exact iff_of_true rfl (hx.1.bounds hn)
  all_goals exact iff_of_false nofun id

/-- **Of two doubles in order the difference is positive,** however close they are. -/
theorem zero_lt_sub {x y : Float} (h : x < y) : 0.0 < y - x := by
  have hsub := positive_sub (representable_double x) (representable_double y)
    (lt_iff_compare.mp h)
  exact zero_lt_iff.mpr (positive_unpack_pack hsub)

/-- **The length over two positive sides is positive**, however small their squares. -/
theorem zero_lt_floatHypotenuse {u v : Float} (hu : 0.0 < u) (hv : 0.0 < v) :
    0.0 < floatHypotenuse u v :=
  zero_lt_iff.mpr (positive_unpack_pack
    (positive_hypotenuse (zero_lt_iff.mp hu) (zero_lt_iff.mp hv)))

end Geospatial.Binary

namespace Geospatial

/-- **Distances of doubles do not vanish.** -/
instance : GradualOrdinate Float where
  zero_lt_sub := Binary.zero_lt_sub
  zero_lt_hypotenuse := Binary.zero_lt_floatHypotenuse
  zero_lt_infinity := by decide

end Geospatial
