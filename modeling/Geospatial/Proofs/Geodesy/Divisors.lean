import Geospatial.Proofs.Binary.Special
import Geospatial.Proofs.Geodesy.Doubles
import Geospatial.Proofs.Geodesy.Foot

/-!
# Where a projection divides by zero

Over the start of an arc the tangent of the arc to the foot is zero, and what follows divides by it.
In exact arithmetic that is the only such point of a short northern arc, and everywhere else the
foot is found. On doubles the zero goes through the formulas like this:

* the arc divided by it is an infinity, which absorbs the terms of the sum, so the tangent of the
  difference in longitude comes out as zero, as it should (`beq_zero_offset`);
* the sine of that difference is the next divisor, another infinity is multiplied by the sine of the
  arc to the foot, which is zero, and the cosine of the latitude is undefined
  (`not_isNumber_cosFootLat`);
* an undefined value passes the clamp and the arc cosine, and neither test on the offset notices
  (`project_of_beq_zero`).

**The functions are those of some library.** What is asked of them is that a sine and an arc tangent
keep zeros and that an arc cosine keeps undefined values.
-/

namespace Geospatial

open scoped ExactReals
open Ordinate (IsNumber)
open Binary (Regular)

/-- What is said of every library is said of the projection that runs. -/
theorem Arc.project_library (a : Arc Float) (p : LonLat Float) :
    a.project p =
      letI := AngleFunctions.library
      a.project p := rfl

/-- The sine and the arc tangent of a zero are zeros, and what is undefined has no arc cosine. -/
structure AngleFunctions.Standard [AngleFunctions Float] : Prop where
  sin_zero {v : Float} : (v == 0.0) = true → (AngleFunctions.sin v == 0.0) = true
  atan_zero {v : Float} : (v == 0.0) = true → (AngleFunctions.atan v == 0.0) = true
  acos_undefined {v : Float} : ¬IsNumber v → ¬IsNumber (AngleFunctions.acos v)

/-- The clamp lets through what does not compare. -/
theorem Trigonometry.not_isNumber_clampToUnit [AngleFunctions Float] {v : Float}
    (h : ¬IsNumber v) : ¬IsNumber (clampToUnit v) := by
  have hlower : ¬v < -1.0 := fun hlt ↦ h (Ordinate.isNumber_left (Ordinate.le_of_lt hlt))
  have hupper : ¬1.0 < v := fun hlt ↦ h (Ordinate.isNumber_right (Ordinate.le_of_lt hlt))
  rwa [clampToUnit, if_neg hlower, if_neg hupper]

namespace Arc

section

variable [AngleFunctions Float]

/-- What is computed of the arc alone neither vanishes where it is a divisor nor overflows. -/
structure Ordinary (a : Arc Float) : Prop where
  east : a.start.lon < a.stop.lon
  cosine : a.cosine.isFinite = true
  sine : Regular a.sine
  ratio : Regular (a.start.cosLat / a.stop.cosLat)
  cosWidth : (Trigonometry.cos a.width).isFinite = true
  sinWidth : Regular a.sinWidth

variable (hf : AngleFunctions.Standard) {a : Arc Float} (ha : a.Ordinary) {p : LonLat Float}

include ha

/-- The start is over itself, if the cosine of no arc at all comes out as one. -/
theorem beq_zero_tanFoot_start (hone : (a.start.cosArc a.start == 1.0) = true) :
    (a.tanFoot a.start == 0.0) = true := by
  have hcosArc : a.start.cosArc a.start = 1.0 := by
    rcases Binary.eq_or_zeros_of_beq hone with heq | ⟨-, hzero⟩
    · exact heq
    · exact absurd hzero (by decide)
  have hnumerator : a.start.cosArc a.stop / a.start.cosArc a.start - a.cosine =
      a.cosine - a.cosine := by
    rw [hcosArc]
    exact congrArg (· - a.cosine) (Binary.div_one ha.cosine)
  refine Binary.beq_zero_zero_div ?_ ha.sine
  rw [hnumerator]
  exact Binary.beq_zero_sub_self ha.cosine

variable (hzero : (a.tanFoot p == 0.0) = true)

include hzero

/-- Dividing by a zero tangent makes the sum under the tangent of the offset infinite, so that this
tangent is zero. -/
theorem beq_zero_tanOffset : (a.tanOffset p == 0.0) = true := by
  have hquotient := Binary.isInf_div_zero ha.sine hzero
  have hdifference := Binary.isInf_sub hquotient ha.cosine
  have hsum := Binary.isInf_add (Binary.isInf_mul ha.ratio hdifference) ha.cosWidth
  exact Binary.beq_zero_div_inf ha.sinWidth hsum

include hf

/-- **The offset comes out as it should,** by way of two infinities. -/
theorem beq_zero_offset : (a.offset p == 0.0) = true :=
  hf.atan_zero (beq_zero_tanOffset ha hzero)

/-- The second zero that is divided by. -/
theorem beq_zero_sin_offset : (Trigonometry.sin (a.offset p) == 0.0) = true :=
  hf.sin_zero (beq_zero_offset hf ha hzero)

/-- **The latitude does not.** -/
theorem not_isNumber_cosFootLat : ¬IsNumber (a.cosFootLat p) := by
  have hquotient := Binary.isInf_div_zero ha.sinWidth (beq_zero_sin_offset hf ha hzero)
  have hfoot := hf.sin_zero (hf.atan_zero hzero)
  have hproduct := Binary.not_isNumber_inf_mul_zero hquotient hfoot
  exact Binary.not_isNumber_mul (Binary.not_isNumber_div hproduct _) _

/-- Clamping does not make a number of what is none, and neither does the arc cosine. -/
theorem not_isNumber_footLat : ¬IsNumber (a.footLat p) :=
  hf.acos_undefined (Trigonometry.not_isNumber_clampToUnit (not_isNumber_cosFootLat hf ha hzero))

/-- The foot is found inside, at the longitude of the start and at no latitude. -/
theorem project_of_beq_zero :
    (a.project p).position = .inside ∧ ((a.project p).lon == a.start.lon) = true ∧
      ¬IsNumber (a.project p).lat := by
  have hoffset := beq_zero_offset hf ha hzero
  have hmeridian : (a.start.lon == a.stop.lon) = false :=
    Bool.eq_false_iff.mpr fun hbeq ↦ Ordinate.not_lt_of_beq hbeq ha.east
  -- an offset of zero is neither before the start nor behind the end
  have hstart : ¬a.offset p < 0.0 := Ordinate.not_lt_of_beq hoffset
  have hstop : ¬a.width < a.offset p := by
    intro hlt
    have hneg := Ordinate.lt_of_lt_of_beq hlt hoffset
    exact Ordinate.not_lt_of_le (Ordinate.le_of_lt hneg) (GradualOrdinate.zero_lt_sub ha.east)
  rw [project_off_meridian hmeridian, if_neg hstart, if_neg hstop]
  have hnumber : IsNumber a.start.lon := Ordinate.isNumber_left (Ordinate.le_of_lt ha.east)
  exact ⟨rfl, Binary.beq_add_zero hnumber hoffset, not_isNumber_footLat hf ha hzero⟩

end

/-- **A projection divides by zero where the foot is the start,** and on short northern arcs nowhere
else.

* In exact arithmetic, let a place be perpendicular over a point of such an arc. If the point is the
  start, the tangent of the arc to the foot is zero, and it is a divisor. If it is any other point,
  the end included, no divisor is zero and the place that is found inside is that point. The start
  itself is perpendicular over the start.
* On doubles, whatever library computes the functions, that tangent is zero for the start at least
  where the cosine of no arc at all comes out as one. Wherever it is zero, a second divisor, the
  sine of the offset, is zero as well, and what is found inside has the longitude of the start and
  an undefined latitude. -/
theorem divides_by_zero_over_start {a : Arc ℝ} (ha : a.Northern) [AngleFunctions Float]
    (hf : AngleFunctions.Standard) {b : Arc Float} (hb : b.Ordinary) :
    ((∀ p : LonLat ℝ, p.BetweenPoles → ∀ f : a.Point, a.IsFoot p f →
        (f.direction = a.start.direction → a.tanFoot p = 0 ∧ a.tanFoot p ∈ a.divisors p) ∧
        (f.direction ≠ a.start.direction → (∀ d ∈ a.divisors p, d ≠ 0) ∧
          (a.project p).position = .inside ∧ (a.project p).place.direction = f.direction)) ∧
      a.IsFoot a.start (.start a)) ∧
    ((b.start.cosArc b.start == 1.0) = true → (b.tanFoot b.start == 0.0) = true) ∧
    ∀ p : LonLat Float, (b.tanFoot p == 0.0) = true →
      (Trigonometry.sin (b.offset p) == 0.0) = true ∧
      (b.project p).position = .inside ∧ ((b.project p).lon == b.start.lon) = true ∧
        ¬IsNumber (b.project p).lat := by
  refine ⟨⟨fun p hp f hfoot ↦ ⟨fun hstart ↦ ⟨?_, ?_⟩, fun hne ↦ ?_⟩, isFoot_start a⟩,
    beq_zero_tanFoot_start hb, fun p hzero ↦
      ⟨beq_zero_sin_offset hf hb hzero, project_of_beq_zero hf hb hzero⟩⟩
  · exact hfoot.tanFoot_eq_zero ha hp ((f.direction_eq_start_iff ha).mp hstart)
  · simp [divisors]
  -- any other point has a share of the end
  · have hv : 0 < f.v :=
      lt_of_le_of_ne f.v_nonneg fun hv ↦ hne ((f.direction_eq_start_iff ha).mpr hv.symm)
    exact ⟨hfoot.divisors_ne_zero ha hp hv, congrArg _ (hfoot.project_eq ha hp hv),
      hfoot.direction_project ha hp hv⟩

/-- The functions of trigonometry, at the angles that are met with in the projection of a place on
the equator onto an arc of one radian that starts there. -/
@[reducible]
def equatorial : AngleFunctions Float where
  sqrt := Float.sqrt
  sin := id
  cos v := if v == 1.0 then 0.5403023058681398 else 1.0
  atan := id
  acos := id

/-- An arc of one radian along the equator, in exact arithmetic and on doubles. -/
theorem divides_by_zero_over_start_equator :
    letI := equatorial
    let a : Arc ℝ := ⟨⟨0, 0⟩, ⟨1, 0⟩⟩
    let b : Arc Float := ⟨⟨0.0, 0.0⟩, ⟨1.0, 0.0⟩⟩
    (a.Northern ∧ a.tanFoot a.start = 0 ∧ (∀ d ∈ a.divisors a.stop, d ≠ 0) ∧
      (a.project a.stop).place.direction = a.stop.direction) ∧
    AngleFunctions.Standard ∧ b.Ordinary ∧ (b.tanFoot b.start == 0.0) = true ∧
      ¬IsNumber (b.project b.start).lat := by
  intro a b
  have hquarter : (1 : ℝ) < 0 + Real.pi / 2 := by linarith [Real.pi_gt_three]
  have ha : a.Northern :=
    ⟨zero_lt_one, hquarter, ⟨le_rfl, Real.pi_div_two_pos⟩, ⟨le_rfl, Real.pi_div_two_pos⟩⟩
  have hstandard := @AngleFunctions.Standard.mk equatorial id id id
  have hb : @Ordinary equatorial b := by
    apply @Ordinary.mk equatorial <;> decide +kernel
  obtain ⟨⟨hexact, hfoot⟩, hstart, hundefined⟩ :=
    @divides_by_zero_over_start a ha equatorial hstandard b hb
  have hend : (Point.stop a).direction ≠ a.start.direction := by
    rw [Ne, Point.direction_eq_start_iff _ ha]
    exact one_ne_zero
  obtain ⟨hover, -⟩ := hexact a.start ha.start.betweenPoles _ hfoot
  obtain ⟨-, hbehind⟩ := hexact a.stop ha.stop.betweenPoles _ (isFoot_stop a)
  obtain ⟨hne, -, hfound⟩ := hbehind hend
  have hzero := hstart (by decide +kernel)
  exact ⟨⟨ha, (hover (Point.direction_start a)).1, hne, hfound.trans (Point.direction_stop a)⟩,
    hstandard, hb, hzero, (hundefined b.start hzero).2.2.2⟩

/-- The start of an arc of one radian along the equator, projected onto it: two divisors are zero,
and the latitude is undefined. -/
theorem not_defined_at_start :
    letI := equatorial
    let a : Arc Float := ⟨⟨0.0, 0.0⟩, ⟨1.0, 0.0⟩⟩
    (a.start.lon < a.stop.lon ∧ a.stop.lon < a.start.lon + Trigonometry.quarterTurn) ∧
      (a.tanFoot a.start == 0.0) = true ∧ (Trigonometry.sin (a.offset a.start) == 0.0) = true ∧
      (a.project a.start).position = .inside ∧ ¬IsNumber (a.project a.start).lat := by
  decide +kernel

end Arc

end Geospatial
