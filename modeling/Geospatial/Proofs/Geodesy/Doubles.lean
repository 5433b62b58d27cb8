import Geospatial.Geodesy.Bearing
import Geospatial.Proofs.Binary.Ordering
import Geospatial.Proofs.Geodesy.Exact

/-!
# Angles in doubles

Doubles, with the functions of trigonometry of some library: those that are given as
`AngleFunctions`, whatever they are. What a statement needs of them it says; `AngleFunctions.Ranged`
gathers what is needed to tell the range of a bearing.

**Nothing overflows on a sphere.** Places whose angles stay within a wide bound (`Moderate`) have
differences and sums that are finite doubles, and so has the way from one to another
(`isFinite_offset`). Angles that were given in degrees stay within it once they are converted,
however large the degrees (`moderate_toRadians`).
-/

namespace Geospatial

open Ordinate (IsNumber)
open Binary

/-- Doubles with the functions of a library other than the one at hand. -/
instance [AngleFunctions Float] : Trigonometry Float where
  sqrt := AngleFunctions.sqrt
  sin := AngleFunctions.sin
  cos := AngleFunctions.cos
  atan := AngleFunctions.atan
  acos := AngleFunctions.acos
  pi := Trigonometry.pi
  degreesPerRadian := Trigonometry.degreesPerRadian

/-- The library at hand. -/
@[reducible]
def AngleFunctions.library : AngleFunctions Float where
  sqrt := Float.sqrt
  sin := Float.sin
  cos := Float.cos
  atan := Float.atan
  acos := Float.acos

/-- Where the cosine and the arc tangent of a library lie: a cosine between -1 and 1, and an arc
tangent, which is monotone and keeps zeros, within a quarter turn on either side. -/
structure AngleFunctions.Ranged [AngleFunctions Float] : Prop where
  cos_mem {v : Float} (h : v.isFinite = true) :
    -1.0 ≤ AngleFunctions.cos v ∧ AngleFunctions.cos v ≤ 1.0
  atan_mono {u v : Float} (h : u ≤ v) : AngleFunctions.atan u ≤ AngleFunctions.atan v
  atan_zero {v : Float} (h : (v == 0.0) = true) : (AngleFunctions.atan v == 0.0) = true
  atan_mem {v : Float} (h : IsNumber v) :
    -Trigonometry.quarterTurn ≤ AngleFunctions.atan v ∧
      AngleFunctions.atan v ≤ Trigonometry.quarterTurn

namespace Trigonometry

/-! ### The clamp -/

/-- A number is clamped to the unit interval around zero. -/
theorem clampToUnit_mem_of_isNumber {v : Float} (h : IsNumber v) :
    -1.0 ≤ clampToUnit v ∧ clampToUnit v ≤ 1.0 := by
  have hlower : IsNumber (-1.0 : Float) := by decide
  have hupper : IsNumber (1.0 : Float) := by decide
  unfold clampToUnit
  split
  · exact ⟨hlower, by decide⟩
  next hnot =>
    rw [Ordinate.not_lt_iff_le h hlower] at hnot
    split
    · exact ⟨by decide, hupper⟩
    next hnot' => exact ⟨hnot, (Ordinate.not_lt_iff_le hupper h).mp hnot'⟩

theorem clampToUnit_mono {u v : Float} (h : u ≤ v) : clampToUnit u ≤ clampToUnit v := by
  by_cases hlower : u < -1.0
  · have hu : clampToUnit u = -1.0 := if_pos hlower
    rw [hu]
    exact (clampToUnit_mem_of_isNumber (Ordinate.isNumber_right h)).1
  · by_cases hupper : 1.0 < v
    · have hlower' : ¬v < -1.0 :=
        Ordinate.not_lt_of_le (Ordinate.le_of_lt (Ordinate.lt_of_le_of_lt (by decide) hupper))
      have hv : clampToUnit v = 1.0 := by rw [clampToUnit, if_neg hlower', if_pos hupper]
      rw [hv]
      exact (clampToUnit_mem_of_isNumber (Ordinate.isNumber_left h)).2
    · have hlower' : ¬v < -1.0 := fun hlt ↦ hlower (Ordinate.lt_of_le_of_lt h hlt)
      have hupper' : ¬1.0 < u := fun hlt ↦ hupper (Ordinate.lt_of_lt_of_le hlt h)
      rwa [clampToUnit, clampToUnit, if_neg hlower, if_neg hupper', if_neg hlower', if_neg hupper]

/-! ### Constants

Whatever the library, its constants are these. -/

theorem two_mul_pi : (2.0 * 3.141592653589793 : Float) = 6.283185307179586 := by
  decide +kernel

theorem three_mul_pi_div_two : (3.0 * 3.141592653589793 / 2.0 : Float) = 4.71238898038469 := by
  decide +kernel

theorem pi_div_two : (3.141592653589793 / 2.0 : Float) = 1.5707963267948966 := by
  decide +kernel

theorem pi_div_half_turn : (3.141592653589793 / 180.0 : Float) = 0.017453292519943295 := by
  decide +kernel

variable [AngleFunctions Float]

theorem pi_double : (pi : Float) = 3.141592653589793 := rfl

theorem fullTurn_double : (fullTurn : Float) = 6.283185307179586 := two_mul_pi

theorem threeQuarterTurn_double : (threeQuarterTurn : Float) = 4.71238898038469 :=
  three_mul_pi_div_two

theorem quarterTurn_double : (quarterTurn : Float) = 1.5707963267948966 := pi_div_two

theorem toRadians_double (v : Float) : toRadians v = v * 0.017453292519943295 :=
  congrArg (v * ·) pi_div_half_turn

theorem toDegrees_double (v : Float) : toDegrees v = v * 57.29577951308232 := rfl

/-! ### Conversion -/

/-- Angles that are equal in degrees are equal in radians. -/
theorem toRadians_beq {u v : Float} (hu : u.isFinite = true) (hv : v.isFinite = true)
    (h : (u == v) = true) : (toRadians u == toRadians v) = true := by
  have hfactor : (0.017453292519943295 : Float).isFinite = true := by decide
  have hpos : (0.0 : Float) ≤ 0.017453292519943295 := by decide
  obtain ⟨hle, hge⟩ := LawfulOrdinate.beq_iff_le_ge.mp h
  rw [toRadians_double, toRadians_double, LawfulOrdinate.beq_iff_le_ge]
  exact ⟨Binary.mul_le_mul_of_nonneg hu hv hfactor hle hpos,
    Binary.mul_le_mul_of_nonneg hv hu hfactor hge hpos⟩

theorem toDegrees_fullTurn : toDegrees (fullTurn : Float) = 360.0 := by
  have hproduct : (6.283185307179586 * 57.29577951308232 : Float) = 360.0 := by decide +kernel
  rw [fullTurn_double, toDegrees_double]
  exact hproduct

/-- An angle of the circle is not negative in degrees either. -/
theorem zero_le_toDegrees {r : Float} (hlower : 0.0 ≤ r) (hupper : r ≤ fullTurn) :
    0.0 ≤ toDegrees r := by
  have hzero : (0.0 : Float).isFinite = true := by decide
  have hfactor : (57.29577951308232 : Float).isFinite = true := by decide
  have hpos : (0.0 : Float) ≤ 57.29577951308232 := by decide
  rw [fullTurn_double] at hupper
  have hr := isFinite_of_between hzero (by decide) hlower hupper
  rw [toDegrees_double]
  exact Ordinate.le_trans (by decide)
    (Binary.mul_le_mul_of_nonneg hzero hr hfactor hlower hpos)

/-- What is below a full turn stays below it in degrees. -/
theorem toDegrees_lt {r : Float} (hlower : 0.0 ≤ r) (hupper : r < fullTurn) :
    toDegrees r < 360.0 := by
  have hzero : (0.0 : Float).isFinite = true := by decide
  have hlast : (6.283185307179585 : Float).isFinite = true := by decide
  have hfactor : (57.29577951308232 : Float).isFinite = true := by decide
  have hpos : (0.0 : Float) ≤ 57.29577951308232 := by decide
  rw [fullTurn_double] at hupper
  have hupper' : r ≤ 6.283185307179585 :=
    le_of_lt_of_rankOf (p := 1) (q := -50) (r := 7074237752028440) (by decide +kernel)
      (by decide +kernel) hupper
  have hr := isFinite_of_between hzero hlast hlower hupper'
  rw [toDegrees_double]
  exact Ordinate.lt_of_le_of_lt (Binary.mul_le_mul_of_nonneg hr hlast hfactor hupper' hpos)
    (by decide +kernel)

end Trigonometry

namespace LonLat

/-! ### Moderate angles -/

/-- Both angles are finite. -/
def IsFinite (p : LonLat Float) : Prop :=
  p.lon.isFinite = true ∧ p.lat.isFinite = true

/-- Both angles are so far from the ends of the range that no difference of two such angles is
beyond it. -/
structure Moderate (p : LonLat Float) : Prop where
  lon_lower : -1e307 ≤ p.lon
  lon_upper : p.lon ≤ 1e307
  lat_lower : -1e307 ≤ p.lat
  lat_upper : p.lat ≤ 1e307

section

variable {u v : Float} (hu : -1e307 ≤ u) (hu' : u ≤ 1e307)

include hu hu'

/-- What is between the two limits is a finite number. -/
theorem isFinite_of_moderate : u.isFinite = true :=
  isFinite_of_between (by decide +kernel) (by decide +kernel) hu hu'

variable (hv : -1e307 ≤ v) (hv' : v ≤ 1e307)

include hv hv'

/-- A difference of two such values is far from where a sum overflows. -/
theorem isFinite_sub_of_moderate : (v - u).isFinite = true := by
  have hlow : (-1e307 : Float).isFinite = true := by decide +kernel
  have hhigh : (1e307 : Float).isFinite = true := by decide +kernel
  have hfinite := isFinite_of_moderate hu hu'
  have hfinite' := isFinite_of_moderate hv hv'
  exact isFinite_of_between (by decide +kernel) (by decide +kernel)
    (Binary.sub_le_sub hlow hfinite' hfinite hhigh hv hu')
    (Binary.sub_le_sub hfinite' hhigh hlow hfinite hv' hu)

theorem isFinite_add_of_moderate : (u + v).isFinite = true := by
  have hlow : (-1e307 : Float).isFinite = true := by decide +kernel
  have hhigh : (1e307 : Float).isFinite = true := by decide +kernel
  have hfinite := isFinite_of_moderate hu hu'
  have hfinite' := isFinite_of_moderate hv hv'
  exact isFinite_of_between (by decide +kernel) (by decide +kernel)
    (Binary.add_le_add hlow hfinite hlow hfinite' hu hv)
    (Binary.add_le_add hfinite hhigh hfinite' hhigh hu' hv')

end

section

variable {a b p : LonLat Float}

theorem Moderate.isFinite (h : p.Moderate) : p.IsFinite :=
  ⟨isFinite_of_moderate h.lon_lower h.lon_upper, isFinite_of_moderate h.lat_lower h.lat_upper⟩

variable [AngleFunctions Float]

/-- However large an angle is in degrees, in radians it is moderate. -/
theorem toRadians_mem {v : Float} (h : v.isFinite = true) :
    -1e307 ≤ Trigonometry.toRadians v ∧ Trigonometry.toRadians v ≤ 1e307 := by
  obtain ⟨hlower, hupper⟩ := between_greatest h
  have hleast : (-1.7976931348623157e308 : Float).isFinite = true := by decide +kernel
  have hgreatest : (1.7976931348623157e308 : Float).isFinite = true := by decide +kernel
  have hfactor : (0.017453292519943295 : Float).isFinite = true := by decide
  have hpos : (0.0 : Float) ≤ 0.017453292519943295 := by decide
  rw [Trigonometry.toRadians_double]
  exact ⟨Ordinate.le_trans (by decide +kernel)
      (Binary.mul_le_mul_of_nonneg hleast h hfactor hlower hpos),
    Ordinate.le_trans (Binary.mul_le_mul_of_nonneg h hgreatest hfactor hupper hpos)
      (by decide +kernel)⟩

/-- Every place of finite degrees is moderate in radians, since the factor is less than one
fiftieth. -/
theorem moderate_toRadians (h : p.IsFinite) : p.toRadians.Moderate where
  lon_lower := (toRadians_mem h.1).1
  lon_upper := (toRadians_mem h.1).2
  lat_lower := (toRadians_mem h.2).1
  lat_upper := (toRadians_mem h.2).2

/-- **The way from one place to another is finite.** -/
theorem isFinite_offset (hf : AngleFunctions.Ranged) (ha : a.Moderate) (hb : b.Moderate) :
    (a.offset b).1.isFinite = true ∧ (a.offset b).2.isFinite = true := by
  have hsum := isFinite_add_of_moderate ha.lat_lower ha.lat_upper hb.lat_lower hb.lat_upper
  have hmean : ((a.lat + b.lat) * 0.5).isFinite = true :=
    isFinite_mul hsum (by decide) (by decide)
  obtain ⟨hlower, hupper⟩ := hf.cos_mem hmean
  exact ⟨isFinite_mul (isFinite_sub_of_moderate ha.lon_lower ha.lon_upper hb.lon_lower hb.lon_upper)
      hlower hupper,
    isFinite_sub_of_moderate ha.lat_lower ha.lat_upper hb.lat_lower hb.lat_upper⟩

end

end LonLat

end Geospatial
