import Geospatial.Proofs.Binary.Arithmetic
import Mathlib

/-!
# Values that a format has

Among the values that can be told as a mantissa and an exponent, an interchange format has those in
canonical form whose exponent is in its range: `Representable`. They are the values that its bits
stand for (`representable_unpack`), packing them loses nothing (`unpack_pack`), and but for the
undefined value every bit pattern is the only one of its value (`pack_unpack`).

**A value is in canonical form in one way only**, so rounding finds it whatever mantissa and
exponent it is told by: from a smaller exponent (`round_mul`), as bits are shifted out that are all
zero, and from a greater one (`round_div`).
-/

namespace Geospatial.Binary

open Float.Model (Format UnpackedFloat totalExponent)
open Float.Model.UnpackedFloat

/-! ### Formats -/

/-- The exponent field of a subnormal is zero and counts as one. -/
theorem minExponent_add (spec : Format) :
    spec.minExponent + spec.exponentBias + spec.mantissaBitsWithoutImplicit = 1 := by
  have hpos : 0 < 2 ^ (spec.exponentBits - 1) := Nat.two_pow_pos _
  have hcast : ((2 ^ (spec.exponentBits - 1) : Nat) : Int) = 2 ^ (spec.exponentBits - 1) := by
    push_cast
    rfl
  unfold Format.minExponent Format.exponentBias Format.mantissaBits
  omega

/-- The exponent field has room for the bias on both sides of zero. -/
theorem two_pow_exponentBits (spec : Format) :
    2 ^ spec.exponentBits = 2 * spec.exponentBias + 2 := by
  have hpos : 0 < 2 ^ (spec.exponentBits - 1) := Nat.two_pow_pos _
  have hsucc : spec.exponentBits = spec.exponentBits - 1 + 1 := by
    have := spec.he
    omega
  rw [hsucc, Nat.pow_succ, Format.exponentBias]
  omega

/-- The exponent is the one that the format has for values of this size. -/
def Canonical (spec : Format) (m : Nat) (e : Int) : Prop :=
  spec.targetExponent (totalExponent m e) = e

/-- The mantissa has all digits of the format, or fewer at the least exponent. -/
theorem canonical_iff {spec : Format} {m : Nat} {e : Int} (hm : 0 < m) :
    Canonical spec m e ↔
      m.log2 = spec.mantissaBitsWithoutImplicit ∧ spec.minExponent ≤ e ∨
        m < 2 ^ spec.mantissaBitsWithoutImplicit ∧ e = spec.minExponent := by
  rw [← Nat.log2_lt hm.ne']
  unfold Canonical Format.targetExponent totalExponent Format.mantissaBits
  omega

/-- The format has the value. -/
def Representable (spec : Format) : UnpackedFloat → Prop
  | .finite _ m e _ =>
    Canonical spec m e ∧ e + spec.mantissaBitsWithoutImplicit ≤ spec.exponentBias
  | _ => True

theorem eq_notANumber {f : UnpackedFloat} (h : f.isNaN = true) : f = .notANumber := by
  rcases f with s | - | s | ⟨s, m, e, hm⟩
  case notANumber => rfl
  all_goals cases h

/-! ### Components of a bit pattern -/

section Components

variable {spec : Format} (s : Sign) (e : BitVec spec.exponentBits)
  (m : BitVec spec.mantissaBitsWithoutImplicit)

/-- The sign is the first bit of what is packed. -/
theorem unpackSign_packComponents : unpackSign (packComponents spec s e m) = s.toBitVec := by
  refine BitVec.eq_of_getLsbD_eq fun i hi ↦ ?_
  obtain rfl : i = 0 := by omega
  simp [unpackSign, packComponents, BitVec.getLsbD_append, BitVec.getElem_append]

theorem ofBitVec_toBitVec : Sign.ofBitVec s.toBitVec = s := by
  cases s <;> rfl

theorem toBitVec_ofBitVec (b : BitVec 1) : (Sign.ofBitVec b).toBitVec = b := by
  rcases BitVec.eq_zero_or_eq_one b with rfl | rfl <;> rfl

/-- A bit pattern is made of its components. -/
theorem packComponents_unpack (b : BitVec spec.numBits) :
    packComponents spec (Sign.ofBitVec (unpackSign b)) (unpackExponent b) (unpackMantissa b) =
      b := by
  rw [packComponents, toBitVec_ofBitVec]
  refine BitVec.eq_of_getLsbD_eq fun i hi ↦ ?_
  have hm := spec.hm
  have he := spec.he
  have hfield {j n k : Nat} (hj : j < n) (hk : k = i) :
      (decide (j < n) && b.getLsbD k) = b.getLsbD i := by
    rw [hk, decide_eq_true hj, Bool.true_and]
  simp only [BitVec.getLsbD_append, unpackSign, unpackExponent, unpackMantissa,
    BitVec.getLsbD_cast, BitVec.getLsbD_extractLsb]
  -- a bit stands in the mantissa, in the exponent or is the sign
  split
  · exact hfield (by omega) (by omega)
  · split
    · exact hfield (by omega) (by omega)
    · exact hfield (by omega) (by omega)

end Components

/-- The digits of a mantissa with the implicit one in front. -/
theorem toNat_implicit_append {n : Nat} (m : BitVec n) : (1#1 ++ m).toNat = 2 ^ n + m.toNat := by
  rw [BitVec.toNat_append, ← Nat.shiftLeft_add_eq_or_of_lt m.isLt]
  simp [Nat.shiftLeft_eq]

/-- The first digit is the one that need not be written. -/
theorem toNat_implicit_ofNat {n m : Nat} (hm : 0 < m) (hlog : m.log2 = n) :
    (1#1 ++ BitVec.ofNat n m).toNat = m := by
  obtain ⟨hle, hlt⟩ := (Nat.log2_eq_iff hm.ne').mp hlog
  rw [Nat.pow_succ] at hlt
  rw [toNat_implicit_append, BitVec.toNat_ofNat, Nat.mod_eq_sub_mod hle,
    Nat.mod_eq_of_lt (by omega)]
  omega

/-! ### Packing and unpacking -/

section Packing

variable {spec : Format} (s : Sign)

theorem unpack_packedInfinity : unpack spec (packedInfinity spec s) = .infinity s := by
  simp only [unpack, packedInfinity, unpackExponent_packComponents, unpackMantissa_packComponents,
    unpackSign_packComponents, ofBitVec_toBitVec]
  rfl

/-- An exponent field of zeros is not one of ones. -/
theorem zero_ne_ones (spec : Format) : BitVec.ofNat spec.exponentBits 0 ≠ -1#_ := by
  simp [Nat.pos_iff_ne_zero.1 spec.he]

theorem unpack_packedZero : unpack spec (packedZero spec s) = .zero s := by
  have hones := zero_ne_ones spec
  simp only [unpack, packedZero, unpackExponent_packComponents, unpackMantissa_packComponents,
    unpackSign_packComponents, ofBitVec_toBitVec]
  exact (if_neg hones).trans rfl

/-- The first digit alone is no mantissa of zeros. -/
theorem first_digit_ne_zero {n : Nat} (hn : 0 < n) : BitVec.ofNat n 1 <<< (n - 1) ≠ 0#_ := by
  intro hzero
  have hlast : n - 1 < n := by omega
  have hbit := congrArg (BitVec.getLsbD · (n - 1)) hzero
  simp only [BitVec.getLsbD_shiftLeft, BitVec.getLsbD_one, BitVec.getLsbD_zero, hlast, hn,
    decide_true, Nat.lt_irrefl, decide_false, Nat.sub_self, Bool.true_and, Bool.not_false] at hbit
  cases hbit

theorem unpack_packedNaN (spec : Format) : unpack spec (packedNaN spec) = .notANumber := by
  have hfirst := first_digit_ne_zero spec.hm
  simp only [unpack, packedNaN, unpackExponent_packComponents, unpackMantissa_packComponents]
  exact if_neg hfirst

/-- Finite values are told apart by what they are made of. -/
theorem finite_congr {m m' : Nat} {e e' : Int} {hm : 0 < m} (hm' : 0 < m') (hmm : m = m')
    (hee : e = e') : UnpackedFloat.finite s m e hm = .finite s m' e' hm' := by
  subst hmm hee
  rfl

variable {m : Nat} (hm : 0 < m)

/-- A mantissa with fewer digits than the format has is packed below the least exponent. -/
theorem pack_subnormal (hlt : m < 2 ^ spec.mantissaBitsWithoutImplicit)
    (hbias : 0 < spec.exponentBias) :
    pack spec (.finite s m spec.minExponent hm) =
      packComponents spec s 0#_ (BitVec.ofNat _ m) := by
  have hmin := minExponent_add spec
  have hcount := two_pow_exponentBits spec
  have hlog : m.log2 < spec.mantissaBitsWithoutImplicit := (Nat.log2_lt hm.ne').mpr hlt
  have hdigits : m.log2 + 1 ≠ spec.mantissaBits := by
    unfold Format.mantissaBits
    omega
  rw [pack, if_neg (by omega), if_neg hdigits]

/-- An exponent field of zero leaves the leading digit zero. -/
theorem unpack_subnormal (hlt : m < 2 ^ spec.mantissaBitsWithoutImplicit) :
    unpack spec (packComponents spec s 0#_ (BitVec.ofNat _ m)) =
      .finite s m spec.minExponent hm := by
  have hmin := minExponent_add spec
  have hones := zero_ne_ones spec
  have hfield : (BitVec.ofNat spec.mantissaBitsWithoutImplicit m).toNat = m := by
    rw [BitVec.toNat_ofNat, Nat.mod_eq_of_lt hlt]
  have hmantissa : BitVec.ofNat spec.mantissaBitsWithoutImplicit m ≠ 0#_ := by
    intro hzero
    rw [hzero, BitVec.toNat_zero] at hfield
    omega
  simp only [unpack, unpackExponent_packComponents, unpackMantissa_packComponents,
    unpackSign_packComponents, ofBitVec_toBitVec]
  rw [if_neg hones, if_pos trivial, dif_neg hmantissa]
  refine finite_congr s hm hfield ?_
  rw [BitVec.toNat_zero]
  omega

variable {e : Int}

/-- A mantissa with all digits is packed without its first. -/
theorem pack_normal (hlog : m.log2 = spec.mantissaBitsWithoutImplicit)
    (hrange : e + spec.mantissaBitsWithoutImplicit ≤ spec.exponentBias) :
    pack spec (.finite s m e hm) =
      packComponents spec s
        (BitVec.ofNat _ (e + spec.exponentBias + spec.mantissaBitsWithoutImplicit).toNat)
        (BitVec.ofNat _ m) := by
  have hcount := two_pow_exponentBits spec
  have hdigits : m.log2 + 1 = spec.mantissaBits := by
    unfold Format.mantissaBits
    omega
  rw [pack, if_neg (by omega), if_pos hdigits]

/-- Any other exponent field below the last puts the leading digit back. -/
theorem unpack_normal (hlog : m.log2 = spec.mantissaBitsWithoutImplicit)
    (hleast : spec.minExponent ≤ e)
    (hrange : e + spec.mantissaBitsWithoutImplicit ≤ spec.exponentBias) :
    unpack spec (packComponents spec s
      (BitVec.ofNat _ (e + spec.exponentBias + spec.mantissaBitsWithoutImplicit).toNat)
      (BitVec.ofNat _ m)) = .finite s m e hm := by
  have hmin := minExponent_add spec
  have hcount := two_pow_exponentBits spec
  generalize hn : (e + spec.exponentBias + spec.mantissaBitsWithoutImplicit).toNat = n
  have hfield : (BitVec.ofNat spec.exponentBits n).toNat = n := by
    rw [BitVec.toNat_ofNat, Nat.mod_eq_of_lt (by omega)]
  -- the field of a normal value is neither the least nor the greatest
  have hones : BitVec.ofNat spec.exponentBits n ≠ -1#_ := by
    intro heq
    rw [heq, BitVec.neg_one_eq_allOnes, BitVec.toNat_allOnes] at hfield
    omega
  have hzero : BitVec.ofNat spec.exponentBits n ≠ 0#_ := by
    intro heq
    rw [heq, BitVec.toNat_zero] at hfield
    omega
  have hmantissa := toNat_implicit_ofNat hm hlog
  simp only [unpack, unpackExponent_packComponents, unpackMantissa_packComponents,
    unpackSign_packComponents, ofBitVec_toBitVec]
  rw [if_neg hones, if_neg hzero]
  refine finite_congr s hm hmantissa ?_
  rw [hfield]
  omega

end Packing

/-- **Packing loses nothing of a value that the format has.** -/
theorem unpack_pack {spec : Format} {f : UnpackedFloat} (hf : Representable spec f) :
    unpack spec (pack spec f) = f := by
  rcases f with s | - | s | ⟨s, m, e, hm⟩
  · exact unpack_packedInfinity s
  · exact unpack_packedNaN spec
  · exact unpack_packedZero s
  · obtain ⟨hcanonical, hrange⟩ := hf
    rcases (canonical_iff hm).mp hcanonical with ⟨hlog, hleast⟩ | ⟨hlt, rfl⟩
    · rw [pack_normal s hm hlog hrange, unpack_normal s hm hlog hleast hrange]
    · have hmin := minExponent_add spec
      rw [pack_subnormal s hm hlt (by omega), unpack_subnormal s hm hlt]

/-- An exponent field between zeros and ones is that of a value with all digits. -/
theorem exists_pack_normal {spec : Format} (s : Sign) {x : BitVec spec.exponentBits}
    (y : BitVec spec.mantissaBitsWithoutImplicit) (hzero : x ≠ 0#_) (hones : x ≠ -1#_) :
    ∃ f, Representable spec f ∧ pack spec f = packComponents spec s x y := by
  have hmin := minExponent_add spec
  have hcount := two_pow_exponentBits spec
  have hx : x.toNat < 2 ^ spec.exponentBits := x.isLt
  have hy : y.toNat < 2 ^ spec.mantissaBitsWithoutImplicit := y.isLt
  have hleast : x.toNat ≠ 0 := fun heq ↦ hzero (BitVec.eq_of_toNat_eq heq)
  have hgreatest : x.toNat ≠ 2 ^ spec.exponentBits - 1 := fun heq ↦
    hones (BitVec.eq_of_toNat_eq (by rw [heq, BitVec.neg_one_eq_allOnes, BitVec.toNat_allOnes]))
  have hpos : 0 < 2 ^ spec.mantissaBitsWithoutImplicit + y.toNat := by omega
  have hlog : (2 ^ spec.mantissaBitsWithoutImplicit + y.toNat).log2 =
      spec.mantissaBitsWithoutImplicit :=
    (Nat.log2_eq_iff hpos.ne').mpr ⟨by omega, by rw [Nat.pow_succ]; omega⟩
  obtain ⟨e, he⟩ : ∃ e : Int, e + spec.exponentBias + spec.mantissaBitsWithoutImplicit =
      x.toNat := ⟨x.toNat - spec.exponentBias - spec.mantissaBitsWithoutImplicit, by omega⟩
  have hcanonical : Canonical spec _ e := (canonical_iff hpos).mpr (Or.inl ⟨hlog, by omega⟩)
  refine ⟨.finite s _ e hpos, ⟨hcanonical, by omega⟩, ?_⟩
  -- the leading digit is not written
  have hwritten : BitVec.ofNat spec.mantissaBitsWithoutImplicit
      (2 ^ spec.mantissaBitsWithoutImplicit + y.toNat) = y := by
    apply BitVec.eq_of_toNat_eq
    rw [BitVec.toNat_ofNat, Nat.add_mod_left, Nat.mod_eq_of_lt hy]
  rw [pack_normal s hpos hlog (by omega), he, Int.toNat_natCast, hwritten, BitVec.ofNat_toNat,
    BitVec.setWidth_eq]

/-- An exponent field of zeros is that of a value with fewer digits. -/
theorem exists_pack_subnormal {spec : Format} (hbias : 0 < spec.exponentBias) (s : Sign)
    {y : BitVec spec.mantissaBitsWithoutImplicit} (hy : y ≠ 0#_) :
    ∃ f, Representable spec f ∧ pack spec f = packComponents spec s 0#_ y := by
  have hmin := minExponent_add spec
  have hlt : y.toNat < 2 ^ spec.mantissaBitsWithoutImplicit := y.isLt
  have hpos : 0 < y.toNat := Nat.pos_of_ne_zero fun heq ↦ hy (BitVec.eq_of_toNat_eq heq)
  have hcanonical := (canonical_iff hpos).mpr (Or.inr ⟨hlt, rfl⟩)
  refine ⟨.finite s y.toNat spec.minExponent hpos, ⟨hcanonical, by omega⟩, ?_⟩
  rw [pack_subnormal s hpos hlt hbias, BitVec.ofNat_toNat, BitVec.setWidth_eq]

/-- **Every bit pattern that stands for a value is the packing of one that the format has.** -/
theorem exists_pack {spec : Format} (hbias : 0 < spec.exponentBias) (b : BitVec spec.numBits)
    (h : (unpack spec b).isNaN = false) :
    ∃ f, Representable spec f ∧ pack spec f = b := by
  rw [← Bool.not_eq_true, isNaN_unpack, not_and_not_right] at h
  rw [← packComponents_unpack b]
  by_cases hones : unpackExponent b = -1#_
  · rw [hones, h hones]
    exact ⟨.infinity _, trivial, rfl⟩
  by_cases hexponent : unpackExponent b = 0#_
  · rw [hexponent]
    by_cases hmantissa : unpackMantissa b = 0#_
    · rw [hmantissa]
      exact ⟨.zero _, trivial, rfl⟩
    · exact exists_pack_subnormal hbias _ hmantissa
  · exact exists_pack_normal _ _ hexponent hones

/-- The bits of a format stand for values that the format has. -/
theorem representable_unpack {spec : Format} (hbias : 0 < spec.exponentBias)
    (b : BitVec spec.numBits) : Representable spec (unpack spec b) := by
  rcases hnumber : (unpack spec b).isNaN with - | -
  · obtain ⟨f, hf, rfl⟩ := exists_pack hbias b hnumber
    rwa [unpack_pack hf]
  · rw [eq_notANumber hnumber]
    trivial

/-- **A bit pattern is the only one of its value.** -/
theorem pack_unpack {spec : Format} (hbias : 0 < spec.exponentBias)
    {b : BitVec spec.numBits} (h : (unpack spec b).isNaN = false) :
    pack spec (unpack spec b) = b := by
  obtain ⟨f, hf, rfl⟩ := exists_pack hbias b h
  rw [unpack_pack hf]

/-! ### Rounding a value that the format has -/

/-- Zeros at the end can be cut off without a trace. -/
theorem shiftRight_zeros (m k : Nat) :
    (⟨m * 2 ^ k, false, false⟩ : ExtendedMantissa) >>> k = ⟨m, false, false⟩ := by
  show k.repeat ExtendedMantissa.shiftRightOne ⟨m * 2 ^ k, false, false⟩ = _
  induction k generalizing m with
  | zero => rw [Nat.pow_zero, Nat.mul_one, Nat.repeat]
  | succ k ih =>
    have hm : m * 2 ^ (k + 1) = m * 2 * 2 ^ k := by rw [Nat.pow_succ', Nat.mul_assoc]
    rw [Nat.repeat, hm, ih, ExtendedMantissa.shiftRightOne, Nat.mul_div_cancel _ Nat.two_pos,
      Nat.mul_mod_left]
    rfl

theorem log2_mul_two_pow {m : Nat} (hm : 0 < m) (k : Nat) : (m * 2 ^ k).log2 = m.log2 + k := by
  induction k with
  | zero => rw [Nat.pow_zero, Nat.mul_one, Nat.add_zero]
  | succ k ih =>
    have hpos : m * 2 ^ k ≠ 0 := (Nat.mul_pos hm (Nat.two_pow_pos k)).ne'
    rw [Nat.pow_succ', Nat.mul_left_comm, Nat.log2_two_mul hpos, ih, Nat.add_assoc]

variable {spec : Format} {m : Nat} {e : Int}

/-- The place of the first digit does not depend on how a value is told. -/
theorem totalExponent_mul (hm : 0 < m) (k : Nat) :
    totalExponent (m * 2 ^ k) (e - k) = totalExponent m e := by
  unfold totalExponent
  rw [log2_mul_two_pow hm]
  omega

/-- Bits that are all zero are shifted out without a trace. -/
theorem shiftToTargetExponent_mul (hm : 0 < m) (h : Canonical spec m e) (k : Nat) :
    shiftToTargetExponent spec (m * 2 ^ k) (e - k) .exact = (⟨m, false, false⟩, e) := by
  have hamount : (e - (e - k)).toNat = k := by omega
  rw [shiftToTargetExponent, totalExponent_mul hm, h, shiftToExponent, hamount]
  exact Prod.ext (shiftRight_zeros m k) (Int.sub_add_cancel e k)

/-- A canonical value is found back behind any number of zeros. -/
theorem roundWithAccuracy_mul (s : Sign) (hm : 0 < m) (h : Canonical spec m e) (k : Nat) :
    roundWithAccuracy spec s (m * 2 ^ k) (e - k) .exact = .finite s m e hm := by
  have hfirst := shiftToTargetExponent_mul hm h k
  have hsecond : shiftToTargetExponent spec m e .exact = (⟨m, false, false⟩, e) := by
    simpa using shiftToTargetExponent_mul hm h 0
  have hrounded : (⟨m, false, false⟩ : ExtendedMantissa).roundedMantissa = m := rfl
  simp only [roundWithAccuracy, hfirst, hrounded, hsecond]
  exact dif_neg hm.ne'

/-- **Told by a smaller exponent**, a value that the format has is found. -/
theorem round_mul (s : Sign) (hm : 0 < m) (h : Canonical spec m e) (k : Nat) :
    UnpackedFloat.round spec s (m * 2 ^ k) (e - k) = .finite s m e hm := by
  have hamount : (e - k - e).toNat = 0 := by omega
  have hexponent : e - k - ((0 : Nat) : Int) = e - k := by omega
  rw [UnpackedFloat.round, totalExponent_mul hm, h]
  simp only [decreaseExponent, hamount, hexponent, Nat.shiftLeft_zero]
  exact roundWithAccuracy_mul s hm h k

/-- **Told by a greater exponent**, it is found too. -/
theorem round_div (s : Sign) (hm : 0 < m) (k : Nat) (hk : 0 < m * 2 ^ k)
    (h : Canonical spec (m * 2 ^ k) (e - k)) :
    UnpackedFloat.round spec s m e = .finite s (m * 2 ^ k) (e - k) hk := by
  have htarget : spec.targetExponent (totalExponent m e) = e - k := by
    rw [← totalExponent_mul hm k]
    exact h
  have hamount : (e - (e - k)).toNat = k := by omega
  rw [UnpackedFloat.round, htarget]
  simp only [decreaseExponent, hamount, Nat.shiftLeft_eq]
  simpa using roundWithAccuracy_mul s hk h 0

end Geospatial.Binary
