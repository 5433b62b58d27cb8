import Mathlib.LinearAlgebra.Matrix.Notation
import Geospatial.Geodesy.Projection
import Geospatial.Proofs.Geodesy.Exact

/-!
# The foot of a perpendicular

What the formulas of a projection compute, in exact arithmetic and with the functions of the reals.
A place is read as a point of the unit sphere, an arc as the combinations of its two endpoints with
coefficients that are not negative, and the foot as the point of the arc that the given place is
perpendicular over (`IsFoot`).

On short arcs of the northern hemisphere the formulas find the foot (`IsFoot.direction_project`) and
no divisor vanishes (`IsFoot.divisors_ne_zero`), as long as the foot is not the start. Over the
start the tangent of the arc to the foot is zero, and the next formula divides by it
(`IsFoot.tanFoot_eq_zero`).

**Everything is told by two coefficients.** For the foot `u • S + v • E`, the tangent of the arc to
it is `v * sine / (u + v * cosine)` (`IsFoot.tanFoot_eq`), and the tangent of the difference in
longitude is its part towards the east by its part towards the meridian of the start
(`IsFoot.tanOffset_eq`); with these each formula becomes an identity between polynomials.
-/

namespace Geospatial

open Real
open scoped ExactReals

namespace LonLat

/-- The point of the unit sphere. -/
noncomputable def direction (p : LonLat ℝ) : Fin 3 → ℝ :=
  ![cos p.lat * cos p.lon, cos p.lat * sin p.lon, sin p.lat]

/-- The latitude is one of those from pole to pole. -/
structure BetweenPoles (p : LonLat ℝ) : Prop where
  south : -(π / 2) ≤ p.lat
  north : p.lat ≤ π / 2

/-- The latitude is one of those from the equator to short of the pole. -/
structure Northern (p : LonLat ℝ) : Prop where
  nonneg : 0 ≤ p.lat
  lt_pole : p.lat < π / 2

/-- The point has distance one from the centre. -/
theorem direction_unit (p : LonLat ℝ) : p.direction ⬝ᵥ p.direction = 1 := by
  simp only [direction, Matrix.vec3_dotProduct']
  linear_combination cos p.lat ^ 2 * sin_sq_add_cos_sq p.lon + sin_sq_add_cos_sq p.lat

/-- Between the poles the cosine of the latitude is not negative, so that it is recovered from the
sine. -/
theorem cosLat_eq {p : LonLat ℝ} (h : p.BetweenPoles) : p.cosLat = cos p.lat :=
  Trigonometry.complement_sin (cos_nonneg_of_mem_Icc ⟨h.south, h.north⟩)

/-- The cosine of the arc is that of the angle between the points. -/
theorem cosArc_eq_dotProduct {p q : LonLat ℝ} (hp : p.BetweenPoles) (hq : q.BetweenPoles) :
    p.cosArc q = p.direction ⬝ᵥ q.direction := by
  have hcos : Trigonometry.cos (q.lon - p.lon) = _ := cos_sub q.lon p.lon
  simp only [cosArc, cosLat_eq hp, cosLat_eq hq, hcos, direction, Matrix.vec3_dotProduct',
    Trigonometry.sin_real]
  ring

namespace Northern

variable {p : LonLat ℝ} (h : p.Northern)

include h

theorem betweenPoles : p.BetweenPoles :=
  ⟨by linarith [h.nonneg, pi_pos], h.lt_pole.le⟩

/-- Short of the pole the parallel is not a point. -/
theorem cosLat_pos : 0 < p.cosLat := by
  rw [cosLat_eq h.betweenPoles]
  exact cos_pos_of_mem_Ioo ⟨by linarith [h.nonneg, pi_pos], h.lt_pole⟩

/-- A northern place is not below the plane of the equator. -/
theorem sinLat_nonneg : 0 ≤ sin p.lat :=
  sin_nonneg_of_nonneg_of_le_pi h.nonneg (by linarith [h.lt_pole, pi_pos])

end Northern

end LonLat

/-- Every value that a projection divides by. -/
def Arc.divisors {α : Type} [Trigonometry α] (a : Arc α) (p : LonLat α) : List α :=
  [a.start.cosArc p, a.sine, a.stop.cosLat, a.tanFoot p,
    a.start.cosLat / a.stop.cosLat * (a.sine / a.tanFoot p - a.cosine) + Trigonometry.cos a.width,
    Trigonometry.sin (a.offset p)]

namespace Arc

/-- An arc that runs east by less than a quarter turn, between two northern places. -/
structure Northern (a : Arc ℝ) : Prop where
  east : a.start.lon < a.stop.lon
  short : a.stop.lon < a.start.lon + π / 2
  start : a.start.Northern
  stop : a.stop.Northern

/-- A point of the sphere on the arc, as a combination of the endpoints. -/
structure Point (a : Arc ℝ) where
  /-- The coefficient of the start. -/
  u : ℝ
  /-- The coefficient of the end. -/
  v : ℝ
  u_nonneg : 0 ≤ u
  v_nonneg : 0 ≤ v
  unit : (u • a.start.direction + v • a.stop.direction) ⬝ᵥ
    (u • a.start.direction + v • a.stop.direction) = 1

namespace Point

variable {a : Arc ℝ}

noncomputable def direction (f : a.Point) : Fin 3 → ℝ :=
  f.u • a.start.direction + f.v • a.stop.direction

/-- The start of the arc. -/
noncomputable def start (a : Arc ℝ) : a.Point where
  u := 1
  v := 0
  u_nonneg := zero_le_one
  v_nonneg := le_rfl
  unit := by simp [LonLat.direction_unit]

/-- The end of the arc. -/
noncomputable def stop (a : Arc ℝ) : a.Point where
  u := 0
  v := 1
  u_nonneg := le_rfl
  v_nonneg := zero_le_one
  unit := by simp [LonLat.direction_unit]

@[simp] theorem direction_start (a : Arc ℝ) : (start a).direction = a.start.direction := by
  simp [direction, start]

@[simp] theorem direction_stop (a : Arc ℝ) : (stop a).direction = a.stop.direction := by
  simp [direction, stop]

end Point

/-- The place is perpendicular over the point of the arc: on its side, and what leads from the one
to the other is orthogonal to the plane of the arc. -/
structure IsFoot (a : Arc ℝ) (p : LonLat ℝ) (f : a.Point) : Prop where
  facing : 0 < p.direction ⬝ᵥ f.direction
  perp_start : (p.direction - (p.direction ⬝ᵥ f.direction) • f.direction) ⬝ᵥ a.start.direction = 0
  perp_stop : (p.direction - (p.direction ⬝ᵥ f.direction) • f.direction) ⬝ᵥ a.stop.direction = 0

/-- The start of an arc is perpendicular over itself. -/
theorem isFoot_start (a : Arc ℝ) : a.IsFoot a.start (.start a) := by
  constructor <;> simp [LonLat.direction_unit]

theorem isFoot_stop (a : Arc ℝ) : a.IsFoot a.stop (.stop a) := by
  constructor <;> simp [LonLat.direction_unit]

namespace Northern

variable {a : Arc ℝ} (h : a.Northern)

include h

/-- The arc is short, and it does run east. -/
theorem width_mem : a.width ∈ Set.Ioo 0 (π / 2) :=
  ⟨sub_pos.mpr h.east, by linarith [h.short, show a.width = a.stop.lon - a.start.lon from rfl]⟩

theorem cos_width_pos : 0 < cos a.width :=
  cos_pos_of_mem_Ioo ⟨by linarith [h.width_mem.1, pi_pos], h.width_mem.2⟩

theorem sin_width_pos : 0 < sin a.width :=
  sin_pos_of_pos_of_lt_pi h.width_mem.1 (by linarith [h.width_mem.2, pi_pos])

/-- The sine of the width is recovered from its cosine, since the arc runs east. -/
theorem sinWidth_eq : a.sinWidth = sin a.width :=
  Trigonometry.complement_cos h.sin_width_pos.le

omit h in
/-- The spherical law of cosines, which is how the cosine of the arc is computed. -/
theorem cosine_eq (a : Arc ℝ) :
    a.cosine = sin a.start.lat * sin a.stop.lat + a.start.cosLat * a.stop.cosLat * cos a.width :=
  rfl

theorem cosine_pos : 0 < a.cosine := by
  have hcos := mul_pos (mul_pos h.start.cosLat_pos h.stop.cosLat_pos) h.cos_width_pos
  rw [cosine_eq]
  exact add_pos_of_nonneg_of_pos (mul_nonneg h.start.sinLat_nonneg h.stop.sinLat_nonneg) hcos

/-- The cosine of the arc is less than that of the difference in latitude. -/
theorem cosine_lt_one : a.cosine < 1 := by
  have hlat := cos_le_one (a.start.lat - a.stop.lat)
  rw [cos_sub, ← LonLat.cosLat_eq h.start.betweenPoles, ← LonLat.cosLat_eq h.stop.betweenPoles]
    at hlat
  have hless : cos a.width < 1 := by
    rw [← cos_zero]
    exact cos_lt_cos_of_nonneg_of_le_pi_div_two le_rfl h.width_mem.2.le h.width_mem.1
  rw [cosine_eq]
  nlinarith [mul_pos h.start.cosLat_pos h.stop.cosLat_pos]

/-- The sine of the arc is recovered from its cosine. -/
theorem sine_sq : a.sine ^ 2 = 1 - a.cosine ^ 2 := by
  rw [sine, Trigonometry.complement_real, sq_sqrt]
  nlinarith [h.cosine_pos, h.cosine_lt_one]

theorem sine_pos : 0 < a.sine := by
  rw [sine, Trigonometry.complement_real, sqrt_pos]
  nlinarith [h.cosine_pos, h.cosine_lt_one]

/-- The cosine of the arc, for its endpoints. -/
theorem cosine_eq_dotProduct : a.start.direction ⬝ᵥ a.stop.direction = a.cosine :=
  (LonLat.cosArc_eq_dotProduct h.start.betweenPoles h.stop.betweenPoles).symm

end Northern

/-! ### Points of the arc -/

namespace Point

variable {a : Arc ℝ} (f : a.Point)

/-- The cosine of the arc from the start. -/
noncomputable def reach : ℝ :=
  f.u + f.v * a.cosine

/-- The part towards the meridian of the start. -/
noncomputable def forward : ℝ :=
  f.u * a.start.cosLat + f.v * a.stop.cosLat * cos a.width

/-- The part towards the east of that meridian. -/
noncomputable def eastward : ℝ :=
  f.v * a.stop.cosLat * sin a.width

/-- The part towards the pole. -/
noncomputable def upward : ℝ :=
  f.u * sin a.start.lat + f.v * sin a.stop.lat

variable (h : a.Northern)

include h

/-- What it means of the coefficients that the point is on the sphere. -/
theorem unit_sq : f.u ^ 2 + 2 * f.u * f.v * a.cosine + f.v ^ 2 = 1 := by
  have hunit := f.unit
  simp only [add_dotProduct, dotProduct_add, smul_dotProduct, dotProduct_smul, smul_eq_mul,
    LonLat.direction_unit, dotProduct_comm a.stop.direction, h.cosine_eq_dotProduct] at hunit
  linear_combination hunit

/-- One of the two coefficients is not zero. -/
theorem u_pos_or_v_pos : 0 < f.u ∨ 0 < f.v := by
  by_contra hnot
  obtain ⟨hu, hv⟩ := not_or.mp hnot
  have hunit := f.unit_sq h
  rw [le_antisymm (not_lt.mp hu) f.u_nonneg, le_antisymm (not_lt.mp hv) f.v_nonneg] at hunit
  norm_num at hunit

/-- No point of the arc is a quarter of the sphere away from the start. -/
theorem reach_pos : 0 < f.reach := by
  have hv := mul_nonneg f.v_nonneg h.cosine_pos.le
  rcases f.u_pos_or_v_pos h with hpos | hpos
  · exact add_pos_of_pos_of_nonneg hpos hv
  · exact add_pos_of_nonneg_of_pos f.u_nonneg (mul_pos hpos h.cosine_pos)

/-- Every point of the arc is on the same side of the axis as the meridian of the start. -/
theorem forward_pos : 0 < f.forward := by
  have hu := mul_nonneg f.u_nonneg h.start.cosLat_pos.le
  have hscale := mul_pos h.stop.cosLat_pos h.cos_width_pos
  rw [forward, mul_assoc]
  rcases f.u_pos_or_v_pos h with hpos | hpos
  · exact add_pos_of_pos_of_nonneg (mul_pos hpos h.start.cosLat_pos)
      (mul_nonneg f.v_nonneg hscale.le)
  · exact add_pos_of_nonneg_of_pos hu (mul_pos hpos hscale)

theorem upward_nonneg : 0 ≤ f.upward :=
  add_nonneg (mul_nonneg f.u_nonneg h.start.sinLat_nonneg)
    (mul_nonneg f.v_nonneg h.stop.sinLat_nonneg)

/-- The sine of the arc from the start is the share of the end in that of the whole. -/
theorem reach_sq_add : f.reach ^ 2 + (f.v * a.sine) ^ 2 = 1 := by
  rw [mul_pow, h.sine_sq, reach]
  linear_combination f.unit_sq h

/-- The arc from the start, by its cosine. -/
theorem dotProduct_start : f.direction ⬝ᵥ a.start.direction = f.reach := by
  rw [direction, add_dotProduct, smul_dotProduct, smul_dotProduct, LonLat.direction_unit,
    dotProduct_comm a.stop.direction, h.cosine_eq_dotProduct, reach, smul_eq_mul, smul_eq_mul,
    mul_one]

theorem dotProduct_stop : f.direction ⬝ᵥ a.stop.direction = f.u * a.cosine + f.v := by
  rw [direction, add_dotProduct, smul_dotProduct, smul_dotProduct, LonLat.direction_unit,
    h.cosine_eq_dotProduct, smul_eq_mul, smul_eq_mul, mul_one]

/-- Turned by the longitude of the start, the three parts are the point. -/
theorem direction_eq : f.direction =
    ![f.forward * cos a.start.lon - f.eastward * sin a.start.lon,
      f.forward * sin a.start.lon + f.eastward * cos a.start.lon, f.upward] := by
  have hlon : a.stop.lon = a.start.lon + a.width := (add_sub_cancel _ _).symm
  have hcos : cos a.stop.lon = _ := hlon ▸ cos_add a.start.lon a.width
  have hsin : sin a.stop.lon = _ := hlon ▸ sin_add a.start.lon a.width
  ext i
  fin_cases i <;>
    simp [direction, LonLat.direction, hcos, hsin, forward, eastward, upward,
      LonLat.cosLat_eq h.start.betweenPoles, LonLat.cosLat_eq h.stop.betweenPoles] <;>
    ring

/-- Only the start has no share of the end. -/
theorem direction_eq_start_iff : f.direction = a.start.direction ↔ f.v = 0 := by
  constructor
  · intro heq
    have hreach := f.dotProduct_start h
    have hsq := f.reach_sq_add h
    rw [heq, LonLat.direction_unit] at hreach
    rw [← hreach, one_pow, add_eq_left, sq_eq_zero_iff] at hsq
    exact (mul_eq_zero.mp hsq).resolve_right h.sine_pos.ne'
  · intro hv
    have hunit := f.unit_sq h
    rw [hv, mul_zero, zero_mul, zero_pow two_ne_zero, add_zero, add_zero] at hunit
    have hu : f.u = 1 := (pow_eq_one_iff_of_nonneg f.u_nonneg two_ne_zero).mp hunit
    rw [direction, hv, hu, one_smul, zero_smul, add_zero]

/-- The three parts are orthogonal. -/
theorem parts_sq : f.forward ^ 2 + f.eastward ^ 2 + f.upward ^ 2 = 1 := by
  have hunit : f.direction ⬝ᵥ f.direction = 1 := f.unit
  rw [f.direction_eq h, Matrix.vec3_dotProduct'] at hunit
  linear_combination hunit -
    (f.forward ^ 2 + f.eastward ^ 2) * sin_sq_add_cos_sq a.start.lon

/-- The distance from the axis is a cosine. -/
theorem sqrt_mem : √(f.forward ^ 2 + f.eastward ^ 2) ∈ Set.Icc (-1 : ℝ) 1 := by
  refine ⟨by linarith [sqrt_nonneg (f.forward ^ 2 + f.eastward ^ 2)], ?_⟩
  rw [sqrt_le_one]
  nlinarith [f.parts_sq h]

end Point

/-! ### The formulas -/

/-- The angle of a point with a positive first coordinate, by its coordinates. -/
theorem cos_arctan_div {x : ℝ} (hx : 0 < x) (y : ℝ) :
    cos (arctan (y / x)) = x / √(x ^ 2 + y ^ 2) := by
  have hsum : 1 + (y / x) ^ 2 = (x ^ 2 + y ^ 2) / x ^ 2 := by
    field_simp
  rw [cos_arctan, hsum, sqrt_div (by positivity), sqrt_sq hx.le, one_div_div]

theorem sin_arctan_div {x : ℝ} (hx : 0 < x) (y : ℝ) :
    sin (arctan (y / x)) = y / √(x ^ 2 + y ^ 2) := by
  rw [← tan_mul_cos (cos_arctan_pos _).ne', tan_arctan, cos_arctan_div hx,
    div_mul_div_cancel₀ hx.ne']

namespace IsFoot

variable {a : Arc ℝ} {p : LonLat ℝ} {f : a.Point} (hf : a.IsFoot p f) (h : a.Northern)
  (hp : p.BetweenPoles)

include hf h hp

/-- Seen from the start, the cosine to a place is that to its foot, scaled by the cosine of how high
the place stands over it. -/
theorem cosArc_start : a.start.cosArc p = p.direction ⬝ᵥ f.direction * f.reach := by
  have hperp := hf.perp_start
  rw [sub_dotProduct, smul_dotProduct, f.dotProduct_start h, smul_eq_mul] at hperp
  rw [LonLat.cosArc_eq_dotProduct h.start.betweenPoles hp, dotProduct_comm]
  exact sub_eq_zero.mp hperp

theorem cosArc_stop :
    p.cosArc a.stop = p.direction ⬝ᵥ f.direction * (f.u * a.cosine + f.v) := by
  have hperp := hf.perp_stop
  rw [sub_dotProduct, smul_dotProduct, f.dotProduct_stop h, smul_eq_mul] at hperp
  rw [LonLat.cosArc_eq_dotProduct hp h.stop.betweenPoles]
  exact sub_eq_zero.mp hperp

/-- **The tangent of the arc to the foot.** -/
theorem tanFoot_eq : a.tanFoot p = f.v * a.sine / f.reach := by
  have hreach := (f.reach_pos h).ne'
  have hsine := h.sine_pos.ne'
  have hfacing := hf.facing.ne'
  rw [tanFoot, hf.cosArc_start h hp, hf.cosArc_stop h hp]
  field_simp
  rw [h.sine_sq, Point.reach]
  ring

/-- The sine of the arc to the foot. -/
theorem sin_foot : sin (arctan (a.tanFoot p)) = f.v * a.sine := by
  rw [hf.tanFoot_eq h hp, sin_arctan_div (f.reach_pos h), f.reach_sq_add h, sqrt_one, div_one]

section

variable (hv : 0 < f.v)

include hv

/-- Behind the start the first divisor is positive. -/
theorem tanFoot_pos : 0 < a.tanFoot p := by
  rw [hf.tanFoot_eq h hp]
  exact div_pos (mul_pos hv h.sine_pos) (f.reach_pos h)

/-- The sum under the tangent of the difference in longitude. -/
theorem sum_eq :
    a.start.cosLat / a.stop.cosLat * (a.sine / a.tanFoot p - a.cosine) + cos a.width =
      f.forward / (f.v * a.stop.cosLat) := by
  have hreach := (f.reach_pos h).ne'
  have hsine := h.sine_pos.ne'
  have hcos := h.stop.cosLat_pos.ne'
  have hv' := hv.ne'
  rw [hf.tanFoot_eq h hp, Point.forward]
  field_simp
  rw [Point.reach]
  ring

/-- **The tangent of the difference in longitude.** -/
theorem tanOffset_eq : a.tanOffset p = f.eastward / f.forward := by
  have hforward := (f.forward_pos h).ne'
  have hcos := h.stop.cosLat_pos.ne'
  have hv' := hv.ne'
  have hsum : a.tanOffset p = a.sinWidth / (f.forward / (f.v * a.stop.cosLat)) :=
    congrArg (a.sinWidth / ·) (hf.sum_eq h hp hv)
  rw [hsum, h.sinWidth_eq, Point.eastward]
  field_simp

/-- The offset is the longitude of the foot, counted from the start. -/
theorem offset_eq : a.offset p = arctan (f.eastward / f.forward) :=
  congrArg arctan (hf.tanOffset_eq h hp hv)

/-- Its sine is the part towards the east, over the distance from the axis. -/
theorem sin_offset :
    sin (a.offset p) = f.eastward / √(f.forward ^ 2 + f.eastward ^ 2) := by
  rw [hf.offset_eq h hp hv, sin_arctan_div (f.forward_pos h)]

theorem cos_offset :
    cos (a.offset p) = f.forward / √(f.forward ^ 2 + f.eastward ^ 2) := by
  rw [hf.offset_eq h hp hv, cos_arctan_div (f.forward_pos h)]

/-- The foot lies between the meridians of the endpoints. -/
theorem offset_mem : a.offset p ∈ Set.Icc 0 a.width := by
  have hforward := f.forward_pos h
  have hscale := mul_nonneg (mul_nonneg f.u_nonneg h.start.cosLat_pos.le) h.sin_width_pos.le
  rw [hf.offset_eq h hp hv]
  constructor
  · rw [← arctan_zero, arctan_le_arctan_iff]
    exact div_nonneg (mul_nonneg (mul_nonneg f.v_nonneg h.stop.cosLat_pos.le)
      h.sin_width_pos.le) hforward.le
  · have htan : arctan (tan a.width) = a.width :=
      arctan_tan (by linarith [h.width_mem.1, pi_pos]) h.width_mem.2
    rw [← htan, arctan_le_arctan_iff, tan_eq_sin_div_cos, div_le_div_iff₀ hforward h.cos_width_pos,
      Point.eastward, Point.forward]
    linarith

/-- **The cosine of the latitude of the foot.** -/
theorem cosFootLat_eq : a.cosFootLat p = √(f.forward ^ 2 + f.eastward ^ 2) := by
  have hsine := h.sine_pos.ne'
  have hcos := h.stop.cosLat_pos.ne'
  have hsin := h.sin_width_pos.ne'
  have hv' := hv.ne'
  have hfoot : Trigonometry.sin (Trigonometry.atan (a.tanFoot p)) = _ := hf.sin_foot h hp
  have hoffset : Trigonometry.sin (a.offset p) = _ := hf.sin_offset h hp hv
  rw [cosFootLat, hfoot, hoffset, h.sinWidth_eq, Point.eastward]
  field_simp

/-- Clamping does nothing in exact arithmetic: the distance from the axis is a cosine already. -/
theorem footLat_eq : a.footLat p = arccos √(f.forward ^ 2 + f.eastward ^ 2) := by
  rw [footLat, hf.cosFootLat_eq h hp hv, Trigonometry.clampToUnit_of_mem (f.sqrt_mem h),
    Trigonometry.acos_real]

/-- The parallel of the foot has the distance of the foot from the axis as its radius. -/
theorem cos_footLat : cos (a.footLat p) = √(f.forward ^ 2 + f.eastward ^ 2) := by
  rw [hf.footLat_eq h hp hv, cos_arccos (f.sqrt_mem h).1 (f.sqrt_mem h).2]

/-- The latitude of the foot is northern, so that its sine has the right sign. -/
theorem sin_footLat : sin (a.footLat p) = f.upward := by
  have hrest : 1 - (f.forward ^ 2 + f.eastward ^ 2) = f.upward ^ 2 := by
    linear_combination -f.parts_sq h
  rw [hf.footLat_eq h hp hv, sin_arccos, sq_sqrt (by positivity), hrest,
    sqrt_sq (f.upward_nonneg h)]

/-- A foot behind the start is found inside. -/
theorem project_eq : a.project p = ⟨.inside, a.start.lon + a.offset p, a.footLat p⟩ := by
  obtain ⟨hlower, hupper⟩ := hf.offset_mem h hp hv
  rw [project_off_meridian (beq_eq_false_iff_ne.mpr h.east.ne),
    if_neg (Ordinate.not_lt_zero_iff.mpr hlower), if_neg hupper.not_gt]

/-- **The place that is found is the foot.** -/
theorem direction_project : (a.project p).place.direction = f.direction := by
  have hroot : √(f.forward ^ 2 + f.eastward ^ 2) ≠ 0 := by
    rw [Ne, sqrt_eq_zero (by positivity)]
    nlinarith [f.forward_pos h]
  have hlon : cos (a.start.lon + a.offset p) = _ := cos_add _ _
  have hlon' : sin (a.start.lon + a.offset p) = _ := sin_add _ _
  rw [hf.project_eq h hp hv, f.direction_eq h]
  simp only [LineProjection.place, LonLat.direction, hlon, hlon', hf.cos_footLat h hp hv,
    hf.sin_footLat h hp hv, hf.cos_offset h hp hv, hf.sin_offset h hp hv]
  congr 1
  · field_simp
  · congr 1
    field_simp

/-- **Behind the start no divisor is zero.** -/
theorem divisors_ne_zero : ∀ d ∈ a.divisors p, d ≠ 0 := by
  have hforward := f.forward_pos h
  have heastward := mul_pos (mul_pos hv h.stop.cosLat_pos) h.sin_width_pos
  have hoffset : Trigonometry.sin (a.offset p) = _ := hf.sin_offset h hp hv
  have hsum : a.start.cosLat / a.stop.cosLat * (a.sine / a.tanFoot p - a.cosine) +
      Trigonometry.cos a.width = _ := hf.sum_eq h hp hv
  simp only [divisors, List.forall_mem_cons, hf.cosArc_start h hp, hoffset, hsum]
  exact ⟨(mul_pos hf.facing (f.reach_pos h)).ne', h.sine_pos.ne', h.stop.cosLat_pos.ne',
    (hf.tanFoot_pos h hp hv).ne', (div_pos hforward (mul_pos hv h.stop.cosLat_pos)).ne',
    (div_pos heastward (sqrt_pos.mpr (by positivity))).ne', nofun⟩

end

/-- **Over the start the formulas divide by zero.** -/
theorem tanFoot_eq_zero (hv : f.v = 0) : a.tanFoot p = 0 := by
  rw [hf.tanFoot_eq h hp, hv, zero_mul, zero_div]

end IsFoot

end Arc

end Geospatial
