import Geospatial.Proofs.Binary.Rounding
import Geospatial.Proofs.Storage.Narrowing

/-!
# Narrowing keeps the order

A double that is stored in a narrower format is rounded to nearest, cut off where it is beyond the
range, and widened again, which is exact. `exists_rounds` says that this is what becomes of its
distance from zero, on either side of zero, and greater distances are rounded to greater ones
(`Rounds.mono`). So storage in any format within doubles is monotone (`Within64.monotoneStorage`),
although it merges numbers and loses some to zero and to infinity.
-/

namespace Geospatial.Binary

open Float.Model (Format UnpackedFloat totalExponent)
open Float.Model.UnpackedFloat

variable {spec wide : Format}

/-- A format with more digits and a wider range tells what it is given as it is. -/
theorem value_roundTo_wide {g : UnpackedFloat} (h : Representable spec g)
    (hdigits : spec.mantissaBitsWithoutImplicit ≤ wide.mantissaBitsWithoutImplicit)
    (hbias : spec.exponentBias ≤ wide.exponentBias) : value (roundTo wide g) = value g := by
  cases g with
  | notANumber => rw [roundTo_notANumber]
  | infinity => rw [roundTo_infinity]
  | zero => rw [roundTo_zero]
  | finite s n f hn =>
    obtain ⟨k, hwide⟩ := h.1.exists_widened hn hdigits hbias
    have hk : 0 < n * 2 ^ k := Nat.mul_pos hn (Nat.two_pow_pos k)
    have hround : roundTo wide (.finite s n f hn) = .finite s (n * 2 ^ k) (f - k) hk :=
      round_div s hn k hk hwide
    rw [hround, value, value, dyadic_mul_two_pow]

namespace Narrow

variable {format : Format}

/-- What is written in a format is read as a double of the same value. -/
theorem value_stored (h : Within64 format) (g : UnpackedFloat) :
    value (roundTo .binary64 (unpack format (pack format g))) =
      value (unpack format (pack format g)) :=
  value_roundTo_wide (representable_unpack h.bias_pos _) h.digits h.range

/-- **Storing a double rounds its size** and keeps its side of zero. -/
theorem exists_rounds (h : Within64 format) {v : Float} (hv : v.isNaN = false) :
    ∃ s a b, valueOf v = some (signed s a) ∧
      valueOf (ofFloat v : Narrow format).toFloat = some (signed s b) ∧ Rounds format a b := by
  simp only [valueOf, unpack_toFloat h, ofFloat]
  rw [value_stored h]
  have hnumber : v.toModel.unpack.isNaN = false := hv
  generalize v.toModel.unpack = g at hnumber
  rcases g with s | - | s | ⟨s, m, e, hm⟩
  case notANumber => cases hnumber
  case infinity => exact ⟨s, ⊤, ⊤, rfl, value_packed_infinity format s, .infinity⟩
  case zero => exact ⟨s, 0, 0, rfl, value_packed_zero format s, .zero⟩
  case finite =>
    obtain ⟨t, ht⟩ : ∃ t, format.targetExponent (totalExponent m e) = t := ⟨_, rfl⟩
    obtain ⟨r, hnearest, hround⟩ := exists_round s hm ht
    obtain ⟨b, hb, hrounds⟩ := exists_rounds_packed h.bias_pos s (dyadic_pos hm e)
      (hasUnit_dyadic hm ht) hnearest hround
    exact ⟨s, _, b, rfl, hb, hrounds⟩

end Narrow

end Geospatial.Binary

namespace Geospatial

open Binary Binary.Narrow in
/-- **Numbers of a format within doubles are in the order of the doubles they round.** -/
theorem Binary.Narrow.Within64.monotoneStorage {format : Float.Model.Format}
    (h : Within64 format) : MonotoneStorage (Binary.Narrow format) where
  rounded_le_rounded {v w} hle := by
    have hv : v.isNaN = false := isNumber_iff.mp (Ordinate.isNumber_left hle)
    have hw : w.isNaN = false := isNumber_iff.mp (Ordinate.isNumber_right hle)
    obtain ⟨s, a, b, hva, hvb, hrounds⟩ := exists_rounds h hv
    obtain ⟨s', a', b', hwa, hwb, hrounds'⟩ := exists_rounds h hw
    exact (le_iff_valueOf_le hvb hwb).mpr
      (hrounds.signed_mono hrounds' ((le_iff_valueOf_le hva hwa).mp hle))

instance : MonotoneStorage Storage.Single :=
  Binary.Narrow.Within64.monotoneStorage ⟨by decide, by decide, by decide⟩

instance : MonotoneStorage Storage.Half :=
  Binary.Narrow.Within64.monotoneStorage ⟨by decide, by decide, by decide⟩

/-- Rounding a number twice is rounding it once: what is rounded to is a number. -/
theorem Storage.rounded_rounded {σ : Type} [Storage σ] [LawfulStorage σ] [MonotoneStorage σ]
    {v : Float} (h : v.isNaN = false) : rounded σ (rounded σ v) = rounded σ v := by
  have hself : v ≤ v := Binary.isNumber_iff.mpr h
  have hnumber : rounded σ v ≤ rounded σ v := MonotoneStorage.rounded_le_rounded hself
  exact congrArg widen
    (LawfulStorage.narrow_widen (narrow v) (Binary.isNumber_iff.mp hnumber))

end Geospatial
