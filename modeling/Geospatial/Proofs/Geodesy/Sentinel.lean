import Geospatial.Proofs.Geodesy.FullTurn

/-!
# The answer for equal places

The bearing of equal places is a number that is no bearing (`noBearing`). The variant in degrees
looks for equal places before it converts, the operation on radians looks again afterwards, and the
conversion rounds. So three kinds of pairs are to be told apart: places that are equal in degrees,
places whose radians are distinct, and those that the conversion has made equal (`Merged`).

**The second answer is converted like an angle.** Equal in degrees, places get the answer; distinct
in radians, they get a bearing, which is not negative. For merged places the answer comes from
within and is scaled to degrees, so that it is neither.
-/

namespace Geospatial

namespace LonLat

open Binary Trigonometry

/-- Distinct in degrees and equal in radians. -/
def Merged [AngleFunctions Float] (p q : LonLat Float) : Prop :=
  ¬p.Same q ∧ p.toRadians.Same q.toRadians

section

variable [AngleFunctions Float] {a b p q : LonLat Float} {r : Float}

/-- No angle from zero on is mistaken for the answer. -/
theorem ne_noBearing (h : 0.0 ≤ r) : r ≠ noBearing := by
  have hlt : ¬(0.0 : Float) ≤ -1.0 := by decide
  rintro rfl
  exact hlt h

/-- The answer, converted, is no answer and no bearing. -/
theorem toDegrees_noBearing :
    ¬(Trigonometry.toDegrees (noBearing : Float) = noBearing ∨
      0.0 ≤ Trigonometry.toDegrees (noBearing : Float)) := by
  have hproduct : ¬((-1.0 * 57.29577951308232 : Float) = -1.0 ∨
      (0.0 : Float) ≤ -1.0 * 57.29577951308232) := by decide
  exact hproduct

variable (hf : AngleFunctions.Ranged)

include hf

/-- In radians the answer is given for equal places and for no others. -/
theorem bearing_eq_noBearing_iff (ha : a.Moderate) (hb : b.Moderate) :
    a.bearing b = noBearing ↔ a.Same b := by
  refine ⟨fun h ↦ ?_, bearing_of_same⟩
  by_contra hne
  exact ne_noBearing ((a.headed b).range hf ha hb hne).1 h

/-- A bearing in degrees is not negative. -/
theorem zero_le_bearingDegrees (hp : p.IsFinite) (hq : q.IsFinite)
    (hne : ¬p.toRadians.Same q.toRadians) : 0.0 ≤ p.bearingDegrees q := by
  obtain ⟨hnonneg, hgrazes, hoff⟩ := (p.toRadians.headed q.toRadians).range hf
    (moderate_toRadians hp) (moderate_toRadians hq) hne
  rw [bearingDegrees_of_not_same fun h ↦ hne (h.toRadians hp hq)]
  refine zero_le_toDegrees hnonneg ?_
  by_cases h : p.toRadians.GrazesNorth q.toRadians
  · rw [hgrazes h, fullTurn_double]
    decide
  · exact Ordinate.le_of_lt (hoff h)

/-- **The answer survives the conversion but for merged places.** Of finite angles in degrees, the
result is the answer for equal places and a bearing for places whose radians are distinct. For
merged places, the operation on radians gives the answer and the result is that many degrees. -/
theorem bearingDegrees_answers_unless_merged (hp : p.IsFinite) (hq : q.IsFinite) :
    (p.toRadians.bearing q.toRadians = noBearing ↔ p.toRadians.Same q.toRadians) ∧
      (p.Same q → p.bearingDegrees q = noBearing) ∧
      (¬p.toRadians.Same q.toRadians → 0.0 ≤ p.bearingDegrees q) ∧
      (p.Merged q → p.bearingDegrees q = Trigonometry.toDegrees noBearing) ∧
      (p.bearingDegrees q = noBearing ∨ 0.0 ≤ p.bearingDegrees q ↔ ¬p.Merged q) := by
  have hmerged (h : p.Merged q) : p.bearingDegrees q = Trigonometry.toDegrees noBearing := by
    rw [bearingDegrees_of_not_same h.1, bearing_of_same h.2]
  have hbearing := zero_le_bearingDegrees hf hp hq
  refine ⟨bearing_eq_noBearing_iff hf (moderate_toRadians hp) (moderate_toRadians hq),
    bearingDegrees_of_same, hbearing, hmerged, fun h hpq ↦ ?_, fun h ↦ ?_⟩
  · rw [hmerged hpq] at h
    exact toDegrees_noBearing h
  · by_cases hsame : p.Same q
    · exact Or.inl (bearingDegrees_of_same hsame)
    · exact Or.inr (hbearing fun hradians ↦ h ⟨hsame, hradians⟩)

end

/-- Two longitudes next to each other that are merged. -/
theorem bearingDegrees_answers_unless_merged_neighbours :
    letI := nearZero
    let p : LonLat Float := ⟨58.0, 0.0⟩
    let q : LonLat Float := ⟨58.00000000000001, 0.0⟩
    AngleFunctions.Ranged ∧ p.IsFinite ∧ q.IsFinite ∧ p.Merged q ∧
      p.toRadians.bearing q.toRadians = noBearing ∧
      p.bearingDegrees q = Trigonometry.toDegrees noBearing := by
  let _ := nearZero
  intro p q
  have hp : p.IsFinite := ⟨by decide +kernel, by decide⟩
  have hq : q.IsFinite := ⟨by decide +kernel, by decide⟩
  have hmerged : p.Merged q := ⟨by decide +kernel, by decide +kernel⟩
  obtain ⟨hinner, -, -, houter, -⟩ := bearingDegrees_answers_unless_merged ranged_nearZero hp hq
  exact ⟨ranged_nearZero, hp, hq, hmerged, hinner.mpr hmerged.2, houter hmerged⟩

/-- With the library at hand too, none of whose functions is asked, their bearing in degrees is
neither the answer nor an angle from zero on. -/
theorem not_answer_neighbours :
    let p : LonLat Float := ⟨58.0, 0.0⟩
    let q : LonLat Float := ⟨58.00000000000001, 0.0⟩
    p.IsFinite ∧ q.IsFinite ∧ p.toRadians.bearing q.toRadians = noBearing ∧
      ¬(p.bearingDegrees q = noBearing ∨ 0.0 ≤ p.bearingDegrees q) := by
  intro p q
  exact ⟨⟨by decide +kernel, by decide⟩, ⟨by decide +kernel, by decide⟩, by decide +kernel,
    by decide +kernel⟩

end LonLat

end Geospatial
