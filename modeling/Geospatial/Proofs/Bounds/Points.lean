import Geospatial.Proofs.Binary.Comparison
import Geospatial.Proofs.Envelope.Growth
import Geospatial.Segment

/-!
# Points of a box and points that no bound excludes

A box covers a point when the point lies between its bounds, and intersects a point when no bound
excludes it. On numbers these are the same (`coversPoint_iff_intersectsPoint`).

**A value that is no number is excluded by no bound,** because it compares with none. Such a point
is covered by no box, and yet it intersects every box that its other ordinate allows
(`intersectsPoint_iff_of_wellFormed`): the point without any number intersects all boxes but the
null ones.
-/

namespace Geospatial.Bounds

section

variable {α : Type} [Ordinate α] {a : Bounds α} {x y lo hi v : α}

/-- The three predicates on points give one answer. -/
def AgreesAt (a : Bounds α) (x y : α) : Prop :=
  a.intersectsPoint x y = a.coversPoint x y ∧ a.coversPoint x y = a.containsPoint x y

instance (a : Bounds α) (x y : α) : Decidable (a.AgreesAt x y) :=
  inferInstanceAs (Decidable (_ ∧ _))

/-- The test as the program has it: no bound is passed. A missing number passes none. -/
theorem intersectsPoint_iff :
    a.intersectsPoint x y = true ↔
      a.isNull = false ∧ (¬a.maxX < x ∧ ¬x < a.minX) ∧ ¬a.maxY < y ∧ ¬y < a.minY := by
  simp only [intersectsPoint, Bool.and_eq_true, Bool.not_eq_true', Bool.or_eq_false_iff,
    decide_eq_false_iff_not, and_assoc]

variable [LawfulOrdinate α]

/-- What a span in order does not exclude lies within it, or is no number. -/
theorem not_excluded_iff (h : lo ≤ hi) :
    ¬hi < v ∧ ¬v < lo ↔ ¬Ordinate.IsNumber v ∨ lo ≤ v ∧ v ≤ hi := by
  by_cases hv : Ordinate.IsNumber v
  · rw [Ordinate.not_lt_iff_le (Ordinate.isNumber_right h) hv,
      Ordinate.not_lt_iff_le hv (Ordinate.isNumber_left h), and_comm]
    exact (or_iff_right (not_not.mpr hv)).symm
  · refine iff_of_true ⟨fun hlt ↦ hv ?_, fun hlt ↦ hv ?_⟩ (Or.inl hv)
    · exact Ordinate.isNumber_right (Ordinate.le_of_lt hlt)
    · exact Ordinate.isNumber_left (Ordinate.le_of_lt hlt)

/-- **Intersecting asks of each ordinate that it lies within the bounds, or is no number.** -/
theorem intersectsPoint_iff_of_wellFormed (ha : a.WellFormed) :
    a.intersectsPoint x y = true ↔
      a.isNull = false ∧ (¬Ordinate.IsNumber x ∨ a.minX ≤ x ∧ x ≤ a.maxX) ∧
        (¬Ordinate.IsNumber y ∨ a.minY ≤ y ∧ y ≤ a.maxY) := by
  rw [intersectsPoint_iff]
  refine and_congr_right fun hnull ↦ ?_
  have horder := ha.inOrder hnull
  rw [not_excluded_iff horder.x, not_excluded_iff horder.y]

/-- **Covering is intersecting, of numbers.** -/
theorem coversPoint_iff_intersectsPoint (ha : a.WellFormed) :
    a.coversPoint x y = true ↔
      a.intersectsPoint x y = true ∧ Ordinate.IsNumber x ∧ Ordinate.IsNumber y := by
  rw [coversPoint_iff, intersectsPoint_iff_of_wellFormed ha]
  constructor
  · rintro ⟨hnull, hx, hy⟩
    exact ⟨⟨hnull, Or.inr hx, Or.inr hy⟩, Ordinate.isNumber_right hx.1,
      Ordinate.isNumber_right hy.1⟩
  · rintro ⟨⟨hnull, hx, hy⟩, hnumX, hnumY⟩
    exact ⟨hnull, hx.resolve_left (not_not.mpr hnumX), hy.resolve_left (not_not.mpr hnumY)⟩

/-- The predicates on points part only over a point that no bound excludes for want of a number. -/
theorem agreesAt_iff (ha : a.WellFormed) :
    a.AgreesAt x y ↔
      (a.intersectsPoint x y = true → Ordinate.IsNumber x ∧ Ordinate.IsNumber y) := by
  rw [AgreesAt, containsPoint, and_iff_left rfl, Bool.eq_iff_iff,
    coversPoint_iff_intersectsPoint ha]
  exact ⟨fun h hmeets ↦ (h.mp hmeets).2, fun h ↦ ⟨fun hmeets ↦ ⟨hmeets, h hmeets⟩, And.left⟩⟩

end

/-- **A missing number is excluded by no bound, and is nowhere covered.** On points of numbers the
predicates agree, and so they do wherever a bound excludes the other ordinate. A position is asked
about like the point that it reads as. -/
theorem intersectsPoint_overlooks_missing_numbers {a : Bounds Float} (ha : a.WellFormed)
    (x y : Float) :
    (a.AgreesAt x y ↔ (a.intersectsPoint x y = true → x.isNaN = false ∧ y.isNaN = false)) ∧
      (a.intersectsPoint x y = true ↔
        a.isNull = false ∧ (x.isNaN = true ∨ a.minX ≤ x ∧ x ≤ a.maxX) ∧
          (y.isNaN = true ∨ a.minY ≤ y ∧ y ≤ a.maxY)) ∧
      (a.coversPoint x y = true ↔
        a.intersectsPoint x y = true ∧ x.isNaN = false ∧ y.isNaN = false) ∧
      a.containsPoint x y = a.coversPoint x y ∧
      ∀ p : Position Float, p.plane = .ok (x, y) →
        a.intersectsPosition p = .ok (a.intersectsPoint x y) ∧
          a.coversPosition p = .ok (a.coversPoint x y) ∧
          a.containsPosition p = .ok (a.coversPoint x y) := by
  have hmissing (v : Float) : ¬Ordinate.IsNumber v ↔ v.isNaN = true := by
    rw [Binary.isNumber_iff, Bool.not_eq_false]
  refine ⟨?_, ?_, ?_, rfl, fun p hp ↦ ?_⟩
  · rw [agreesAt_iff ha, Binary.isNumber_iff, Binary.isNumber_iff]
  · rw [intersectsPoint_iff_of_wellFormed ha, hmissing, hmissing]
  · rw [coversPoint_iff_intersectsPoint ha, Binary.isNumber_iff, Binary.isNumber_iff]
  · rw [containsPosition, intersectsPosition, coversPosition, hp]
    exact ⟨rfl, rfl, rfl⟩

/-- A box that reaches to infinity and the point at its far corner: the predicates agree there, and
at a point below the box without an x. -/
theorem intersectsPoint_overlooks_missing_numbers_harmlessly :
    ∃ a : Bounds Float, a = ⟨false, 0.0, Ordinate.infinity, 0.0, 4.0⟩ ∧ a.WellFormed ∧
      a.AgreesAt Ordinate.infinity 4.0 ∧ a.coversPoint Ordinate.infinity 4.0 = true ∧
      a.AgreesAt Ordinate.undefined (-1.0) := by
  have ha : (⟨false, 0.0, Ordinate.infinity, 0.0, 4.0⟩ : Bounds Float).WellFormed :=
    Or.inr ⟨by decide, by decide⟩
  obtain ⟨hagrees, hmeets, hcovers, -⟩ :=
    intersectsPoint_overlooks_missing_numbers ha Ordinate.infinity 4.0
  obtain ⟨hagrees', hmeets', -⟩ :=
    intersectsPoint_overlooks_missing_numbers ha Ordinate.undefined (-1.0)
  have hcorner := hmeets.mpr ⟨rfl, Or.inr ⟨by decide, by decide⟩, Or.inr ⟨by decide, by decide⟩⟩
  refine ⟨_, rfl, ha, hagrees.mpr fun _ ↦ ⟨by decide, by decide⟩,
    hcovers.mpr ⟨hcorner, by decide, by decide⟩, hagrees'.mpr fun h ↦ ?_⟩
  -- the ordinate that is a number lies below the box
  obtain ⟨-, -, hy | ⟨hy, -⟩⟩ := hmeets'.mp h
  · exact absurd hy (by decide)
  · exact absurd hy (by decide)

/-- At a point whose y lies within the box and whose x is no number, they do not agree. -/
theorem not_agreesAt_missing_number :
    ¬(⟨false, 0.0, 4.0, 0.0, 4.0⟩ : Bounds Float).AgreesAt Ordinate.undefined 2.0 ∧
      (⟨false, 0.0, 4.0, 0.0, 4.0⟩ : Bounds Float).intersectsPoint Ordinate.undefined 2.0 = true ∧
      (⟨false, 0.0, 4.0, 0.0, 4.0⟩ : Bounds Float).coversPoint Ordinate.undefined 2.0 = false := by
  decide

end Geospatial.Bounds
