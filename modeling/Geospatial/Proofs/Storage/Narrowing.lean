import Geospatial.Proofs.Binary.Representation
import Geospatial.Proofs.Storage.Laws

/-!
# Storage in fewer bits

Numbers of 32 and of 16 bits obey the laws of storage. A format with as many digits and as wide a
range has every value of the narrower one, told by a smaller exponent (`Representable.widened`); so
reading a narrow number as a double is exact (`unpack_toFloat`), and rounding the double again finds
the bits that it was read from (`ofFloat_toFloat`).
-/

namespace Geospatial

namespace Binary

open Float.Model (Format UnpackedFloat totalExponent)
open Float.Model.UnpackedFloat

/-! ### Wider formats -/

variable {spec wide : Format} {m : Nat} {e : Int}

/-- A format with as many digits and as wide a range has all values of another, told by a smaller
exponent. -/
theorem Canonical.exists_widened (hm : 0 < m) (h : Canonical spec m e)
    (hdigits : spec.mantissaBitsWithoutImplicit ≤ wide.mantissaBitsWithoutImplicit)
    (hbias : spec.exponentBias ≤ wide.exponentBias) :
    ∃ k : Nat, Canonical wide (m * 2 ^ k) (e - k) := by
  have hmin := minExponent_add spec
  have hmin' := minExponent_add wide
  have hle : wide.targetExponent (totalExponent m e) ≤ e := by
    unfold Canonical at h
    unfold Format.targetExponent Format.mantissaBits at h ⊢
    omega
  refine ⟨(e - wide.targetExponent (totalExponent m e)).toNat, ?_⟩
  unfold Canonical
  rw [totalExponent_mul hm]
  omega

/-- The wider format has room for the exponents of the narrower one. -/
theorem Canonical.range_widened {e' : Int} (hm : 0 < m) (h : Canonical wide m e')
    (hlog : m.log2 + e' ≤ wide.exponentBias) (hbias : 0 < wide.exponentBias) :
    e' + wide.mantissaBitsWithoutImplicit ≤ wide.exponentBias := by
  have hmin := minExponent_add wide
  rcases (canonical_iff hm).mp h with ⟨hdigits, -⟩ | ⟨-, rfl⟩
  · omega
  · omega

/-- **A wider format has every value, and rounding back finds it.** -/
theorem Representable.widened {f : UnpackedFloat} (hf : Representable spec f)
    (hdigits : spec.mantissaBitsWithoutImplicit ≤ wide.mantissaBitsWithoutImplicit)
    (hbias : spec.exponentBias ≤ wide.exponentBias) (hpos : 0 < wide.exponentBias) :
    Representable wide (roundTo wide f) ∧ roundTo spec (roundTo wide f) = f := by
  rcases f with s | - | s | ⟨s, m, e, hm⟩
  · exact ⟨trivial, rfl⟩
  · exact ⟨trivial, rfl⟩
  · exact ⟨trivial, rfl⟩
  · obtain ⟨hcanonical, hrange⟩ := hf
    obtain ⟨k, hwide⟩ := hcanonical.exists_widened hm hdigits hbias
    have hk : 0 < m * 2 ^ k := Nat.mul_pos hm (Nat.two_pow_pos k)
    have hround : roundTo wide (.finite s m e hm) = .finite s (m * 2 ^ k) (e - k) hk :=
      round_div s hm k hk hwide
    rw [hround]
    refine ⟨⟨hwide, hwide.range_widened hk ?_ hpos⟩, round_mul s hm hcanonical k⟩
    rw [log2_mul_two_pow hm]
    rcases (canonical_iff hm).mp hcanonical with ⟨hlog, -⟩ | ⟨hlt, -⟩
    · omega
    · have hlog := (Nat.log2_lt hm.ne').mpr hlt
      omega

/-- Rounding to another format keeps what is no number, and makes none. -/
theorem isNaN_roundTo (f : UnpackedFloat) : (roundTo spec f).isNaN = f.isNaN := by
  rcases f with s | - | s | ⟨s, m, e, hm⟩
  · rfl
  · rfl
  · rfl
  · exact isNaN_round spec s m e

/-! ### Narrow numbers -/

namespace Narrow

variable {format : Format}

/-- No more digits than a double, and no wider a range. -/
structure Within64 (format : Format) : Prop where
  digits : format.mantissaBitsWithoutImplicit ≤ Format.binary64.mantissaBitsWithoutImplicit
  range : format.exponentBias ≤ Format.binary64.exponentBias
  bias_pos : 0 < format.exponentBias

/-- Widening is exact, so that narrowing again gives the number back. -/
theorem Within64.widened (h : Within64 format) (n : Narrow format) :
    Representable .binary64 (roundTo .binary64 (unpack format n.bits)) ∧
      roundTo format (roundTo .binary64 (unpack format n.bits)) = unpack format n.bits :=
  (representable_unpack h.bias_pos n.bits).widened h.digits h.range
    (Nat.lt_of_lt_of_le h.bias_pos h.range)

/-- **Reading a number of a narrower format is exact.** -/
theorem unpack_toFloat (h : Within64 format) (n : Narrow format) :
    n.toFloat.toModel.unpack = roundTo .binary64 (unpack format n.bits) :=
  unpack_pack (h.widened n).1

theorem isNaN_toFloat (h : Within64 format) (n : Narrow format) :
    n.toFloat.isNaN = (unpack format n.bits).isNaN := by
  show n.toFloat.toModel.unpack.isNaN = _
  rw [unpack_toFloat h, isNaN_roundTo]

/-- **Rounding what was read finds its bits.** -/
theorem ofFloat_toFloat (h : Within64 format) (n : Narrow format) (hn : n.toFloat.isNaN = false) :
    ofFloat n.toFloat = n := by
  rw [isNaN_toFloat h] at hn
  rw [ofFloat, unpack_toFloat h, (h.widened n).2, pack_unpack h.bias_pos hn]

/-- What is no number stays none. -/
theorem isNaN_toFloat_ofFloat (h : Within64 format) (x : Float) (hx : x.isNaN = true) :
    (ofFloat x : Narrow format).toFloat.isNaN = true := by
  have hmissing : x.toModel.unpack = .notANumber := eq_notANumber hx
  rw [isNaN_toFloat h, ofFloat, hmissing]
  show (unpack format (packedNaN format)).isNaN = true
  rw [unpack_packedNaN]
  rfl

end Narrow

end Binary

open Binary.Narrow in
/-- Numbers of a format within doubles are kept once they are rounded to it. -/
theorem Binary.Narrow.Within64.lawfulStorage {format : Float.Model.Format}
    (h : Within64 format) : LawfulStorage (Binary.Narrow format) where
  narrow_widen n hn := ofFloat_toFloat h n hn
  isNaN_rounded x hx := isNaN_toFloat_ofFloat h x hx

instance : LawfulStorage Storage.Single :=
  Binary.Narrow.Within64.lawfulStorage ⟨by decide, by decide, by decide⟩

instance : LawfulStorage Storage.Half :=
  Binary.Narrow.Within64.lawfulStorage ⟨by decide, by decide, by decide⟩

end Geospatial
