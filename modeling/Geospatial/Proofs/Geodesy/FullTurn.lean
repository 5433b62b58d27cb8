import Geospatial.Proofs.Geodesy.Doubles
import Geospatial.Proofs.Geodesy.Headings

/-!
# The range of a bearing

On doubles, with the functions of any library that keeps to their ranges
(`AngleFunctions.Ranged`). Differences keep their signs, so the quadrants are told rightly, and the
slant lies within a quarter turn of the meridian on the side the quadrant says. What is then added
to it leaves no bearing below zero, and none from the other five answers comes near a full turn.

**The full turn is reached from the west side of north.** There the slant is negative, and the
bearing is a full turn less that much. A slant that is not below half a unit of the full turn
(`seam`) is lost in the sum: the bearing is the full turn itself, where an angle of 0 would be
expected. `GrazesNorth` says of which places this is so, and `fullTurn_add_eq` and
`fullTurn_add_lt` are the two sides of the seam.
-/

namespace Geospatial

open Ordinate (IsNumber)
open Binary Trigonometry

namespace LonLat

/-- What is said of every library is said of the bearings that run. -/
theorem bearing_library (a b : LonLat Float) :
    (a.bearing b, a.bearingDegrees b) =
      letI := AngleFunctions.library
      (a.bearing b, a.bearingDegrees b) :=
  rfl

/-- No comparison tells the two places apart. -/
def Same {α : Type} [BEq α] (a b : LonLat α) : Prop :=
  (a.lon == b.lon) = true ∧ (a.lat == b.lat) = true

instance {α : Type} [BEq α] (a b : LonLat α) : Decidable (Same a b) :=
  inferInstanceAs (Decidable (_ ∧ _))

/-- Half a unit in the last place of a full turn. -/
def seam : Float :=
  4.440892098500626e-16

section

variable [AngleFunctions Float] {a b p q : LonLat Float} {v : Float}

/-- A longitude within half a turn and a latitude within a quarter turn, on either side of zero. -/
structure OnSphere (p : LonLat Float) : Prop where
  lon_lower : -pi ≤ p.lon
  lon_upper : p.lon ≤ pi
  lat_lower : -quarterTurn ≤ p.lat
  lat_upper : p.lat ≤ quarterTurn

/-- The other place lies to the north and so little to the west that the slant is lost in a full
turn. -/
def GrazesNorth (a b : LonLat Float) : Prop :=
  a.lat < b.lat ∧ (a.offset b).1 < 0.0 ∧ -seam ≤ a.slant b

/-- Degrees that are on the sphere are far from where sums overflow. -/
theorem OnSphere.moderate (h : p.OnSphere) : p.Moderate := by
  obtain ⟨hlon, hlon', hlat, hlat'⟩ := h
  rw [pi_double] at hlon hlon'
  rw [quarterTurn_double] at hlat hlat'
  exact ⟨Ordinate.le_trans (by decide +kernel) hlon, Ordinate.le_trans hlon' (by decide +kernel),
    Ordinate.le_trans (by decide +kernel) hlat, Ordinate.le_trans hlat' (by decide +kernel)⟩

/-! ### The slant and its side -/

section

variable (hf : AngleFunctions.Ranged) (ha : a.Moderate) (hb : b.Moderate)

include ha hb

/-- The northward part is positive exactly when the other place lies to the north. -/
theorem zero_lt_north_iff : 0.0 < (a.offset b).2 ↔ a.lat < b.lat := by
  have hlat := ha.isFinite.2
  refine ⟨fun h ↦ ?_, zero_lt_sub⟩
  rw [Ordinate.lt_iff_not_le (isNumber_of_isFinite hlat) (isNumber_of_isFinite hb.isFinite.2)]
  intro hle
  have hself := isNumber_of_isFinite hlat
  have hbelow : b.lat - a.lat ≤ a.lat - a.lat :=
    Binary.sub_le_sub hb.isFinite.2 hlat hlat hlat hle hself
  have hzero := (LawfulOrdinate.beq_iff_le_ge.mp (beq_zero_sub_self hlat)).1
  exact Ordinate.not_lt_of_le (Ordinate.le_trans hbelow hzero) h

/-- It vanishes along a parallel only. -/
theorem north_ne_zero (hlat : (a.lat == b.lat) = false) : ((a.offset b).2 == 0.0) = false := by
  have hfinite := ha.isFinite.2
  have hfinite' := hb.isFinite.2
  by_cases hlt : a.lat < b.lat
  · exact Ordinate.beq_zero_of_pos (zero_lt_sub hlt)
  · rw [Ordinate.not_lt_iff_le (isNumber_of_isFinite hfinite)
      (isNumber_of_isFinite hfinite')] at hlt
    have hsouth : b.lat < a.lat := by
      refine LawfulOrdinate.lt_iff_le_not_ge.mpr ⟨hlt, fun hle ↦ ?_⟩
      exact Bool.eq_false_iff.mp hlat (LawfulOrdinate.beq_iff_le_ge.mpr ⟨hle, hlt⟩)
    -- gradual underflow: latitudes that differ have a difference
    have hneg : b.lat - a.lat < 0.0 := sub_lt_zero hfinite' hfinite hsouth
    rw [← Bool.not_eq_true, LawfulOrdinate.beq_iff_le_ge]
    exact fun h ↦ Ordinate.not_le_of_lt hneg h.2

include hf

/-- The slant is within a quarter turn. -/
theorem slant_between (hlat : (a.lat == b.lat) = false) :
    -1.5707963267948966 ≤ a.slant b ∧ a.slant b ≤ 1.5707963267948966 := by
  obtain ⟨heast, hnorth⟩ := isFinite_offset hf ha hb
  have hnumber := isNumber_div heast hnorth (north_ne_zero ha hb hlat)
  have hmem := hf.atan_mem hnumber
  rw [quarterTurn_double] at hmem
  exact hmem

/-- On the east side of north it is not negative. -/
theorem zero_le_slant (hnorth : 0.0 < (a.offset b).2) (heast : 0.0 ≤ (a.offset b).1) :
    0.0 ≤ a.slant b := by
  obtain ⟨hfinite, hfinite'⟩ := isFinite_offset hf ha hb
  have hzero := LawfulOrdinate.beq_iff_le_ge.mp (hf.atan_zero (v := 0.0) (by decide))
  exact Ordinate.le_trans hzero.2 (hf.atan_mono (zero_le_div hfinite hfinite' heast hnorth))

/-- On the west side it is not positive. -/
theorem slant_le_zero (hnorth : 0.0 < (a.offset b).2) (hwest : (a.offset b).1 ≤ 0.0) :
    a.slant b ≤ 0.0 := by
  obtain ⟨hfinite, hfinite'⟩ := isFinite_offset hf ha hb
  have hzero := LawfulOrdinate.beq_iff_le_ge.mp (hf.atan_zero (v := 0.0) (by decide))
  exact Ordinate.le_trans (hf.atan_mono (div_le_zero hfinite hfinite' hwest hnorth)) hzero.1

end

/-! ### The seam -/

/-- What is not below half a unit is lost in a full turn. -/
theorem fullTurn_add_eq (hlower : -seam ≤ v) (hupper : v ≤ 0.0) : fullTurn + v = fullTurn := by
  have hturn : (6.283185307179586 : Float).isFinite = true := by decide
  have hseam : (-seam).isFinite = true := by decide +kernel
  have hzero : (0.0 : Float).isFinite = true := by decide
  have hv := isFinite_of_between hseam hzero hlower hupper
  have hself := isNumber_of_isFinite hturn
  -- the sum lies between two roundings that are both the full turn
  have hbelow : (6.283185307179586 : Float) ≤ 6.283185307179586 + v :=
    Ordinate.le_trans (by decide +kernel) (Binary.add_le_add hturn hturn hseam hv hself hlower)
  have habove : 6.283185307179586 + v ≤ (6.283185307179586 : Float) :=
    Ordinate.le_trans (Binary.add_le_add hturn hturn hv hzero hself hupper) (by decide +kernel)
  have hbeq : (6.283185307179586 + v == (6.283185307179586 : Float)) = true :=
    LawfulOrdinate.beq_iff_le_ge.mpr ⟨habove, hbelow⟩
  rw [fullTurn_double]
  refine (eq_or_zeros_of_beq hbeq).resolve_right fun h ↦ ?_
  exact absurd h.2 (by decide)

/-- What is below it is not. -/
theorem fullTurn_add_lt (hlower : -1.5707963267948966 ≤ v) (hupper : v < -seam) :
    0.0 ≤ fullTurn + v ∧ fullTurn + v < fullTurn := by
  have hturn : (6.283185307179586 : Float).isFinite = true := by decide
  have hquarter : (-1.5707963267948966 : Float).isFinite = true := by decide
  have hnext : (-4.440892098500627e-16 : Float).isFinite = true := by decide +kernel
  -- the greatest double below the seam, and from there on sums are rounded below the full turn
  have hupper' : v ≤ -4.440892098500627e-16 :=
    le_of_lt_of_rankOf (p := -1) (q := 103) (r := -2 ^ 52) (by decide +kernel) (by decide +kernel)
      hupper
  have hv := isFinite_of_between hquarter hnext hlower hupper'
  have hself := isNumber_of_isFinite hturn
  rw [fullTurn_double]
  exact ⟨Ordinate.le_trans (by decide +kernel)
      (Binary.add_le_add hturn hturn hquarter hv hself hlower),
    Ordinate.lt_of_le_of_lt (Binary.add_le_add hturn hturn hv hnext hself hupper')
      (by decide +kernel)⟩

/-- Southward the bearing stays a quarter turn away from either end. -/
theorem pi_add_mem (hlower : -1.5707963267948966 ≤ v) (hupper : v ≤ 1.5707963267948966) :
    0.0 ≤ pi + v ∧ pi + v < fullTurn := by
  have hpi : (3.141592653589793 : Float).isFinite = true := by decide
  have hquarter : (-1.5707963267948966 : Float).isFinite = true := by decide
  have hquarter' : (1.5707963267948966 : Float).isFinite = true := by decide
  have hv := isFinite_of_between hquarter hquarter' hlower hupper
  have hself := isNumber_of_isFinite hpi
  rw [fullTurn_double, pi_double]
  exact ⟨Ordinate.le_trans (by decide +kernel)
      (Binary.add_le_add hpi hpi hquarter hv hself hlower),
    Ordinate.lt_of_le_of_lt (Binary.add_le_add hpi hpi hv hquarter' hself hupper)
      (by decide +kernel)⟩

/-! ### The range in radians -/

/-- **A bearing lies within a full turn, and the full turn is the bearing of what grazes north.** -/
theorem Headed.range {r : Float} (h : Headed a b r) (hf : AngleFunctions.Ranged)
    (ha : a.Moderate) (hb : b.Moderate) (hne : ¬a.Same b) :
    0.0 ≤ r ∧ (a.GrazesNorth b → r = fullTurn) ∧ (¬a.GrazesNorth b → r < fullTurn) := by
  -- along a parallel nothing is added to a full turn
  have hparallel (hlat : (a.lat == b.lat) = true) : ¬a.GrazesNorth b := fun h ↦
    Ordinate.not_le_of_lt h.1 (LawfulOrdinate.beq_iff_le_ge.mp hlat).2
  cases h with
  | nowhere hlat hlon => exact absurd ⟨hlon, hlat⟩ hne
  | west hlat =>
    rw [threeQuarterTurn_double, fullTurn_double]
    exact ⟨by decide, fun h ↦ absurd h (hparallel hlat), fun _ ↦ by decide⟩
  | east hlat =>
    rw [quarterTurn_double, fullTurn_double]
    exact ⟨by decide, fun h ↦ absurd h (hparallel hlat), fun _ ↦ by decide⟩
  | northeast hlat hnorth heast =>
    have hupper := (slant_between hf ha hb hlat).2
    rw [fullTurn_double]
    exact ⟨zero_le_slant hf ha hb hnorth heast,
      fun h ↦ absurd heast (Ordinate.not_le_of_lt h.2.1),
      fun _ ↦ Ordinate.lt_of_le_of_lt hupper (by decide)⟩
  | northwest hlat hnorth heast =>
    have heastward := isNumber_of_isFinite (isFinite_offset hf ha hb).1
    have hwest : (a.offset b).1 < 0.0 :=
      (Ordinate.lt_iff_not_le heastward Ordinate.isNumber_zero).mpr heast
    have hlower := (slant_between hf ha hb hlat).1
    have hupper := slant_le_zero hf ha hb hnorth (Ordinate.le_of_lt hwest)
    -- a slant that is lost in the full turn is told apart from one that is not
    by_cases hseam : -seam ≤ a.slant b
    · rw [fullTurn_add_eq hseam hupper]
      have hgrazes : a.GrazesNorth b := ⟨(zero_lt_north_iff ha hb).mp hnorth, hwest, hseam⟩
      exact ⟨by rw [fullTurn_double]; decide, fun _ ↦ rfl, fun h ↦ absurd hgrazes h⟩
    · have hbelow : a.slant b < -seam :=
        (Ordinate.lt_iff_not_le (Ordinate.isNumber_right hlower) (by decide +kernel)).mpr hseam
      obtain ⟨hnonneg, hlt⟩ := fullTurn_add_lt hlower hbelow
      exact ⟨hnonneg, fun h ↦ absurd h.2.2 hseam, fun _ ↦ hlt⟩
  | south hlat hnorth =>
    obtain ⟨hlower, hupper⟩ := slant_between hf ha hb hlat
    obtain ⟨hnonneg, hlt⟩ := pi_add_mem hlower hupper
    exact ⟨hnonneg, fun h ↦ absurd ((zero_lt_north_iff ha hb).mpr h.1) hnorth, fun _ ↦ hlt⟩

/-- From a place to itself there is no bearing. -/
theorem bearing_of_same (h : a.Same b) : a.bearing b = noBearing :=
  (Headed.nowhere h.2 h.1).bearing_eq

/-! ### Degrees -/

theorem Same.toRadians (h : p.Same q) (hp : p.IsFinite) (hq : q.IsFinite) :
    p.toRadians.Same q.toRadians :=
  ⟨Trigonometry.toRadians_beq hp.1 hq.1 h.1, Trigonometry.toRadians_beq hp.2 hq.2 h.2⟩

/-- In degrees there is none either: the sentinel itself is answered, not converted. -/
theorem bearingDegrees_of_same (h : p.Same q) : p.bearingDegrees q = noBearing := by
  rw [bearingDegrees, h.1, h.2]
  rfl

/-- Places that are distinct in degrees have the bearing of their radians, converted. -/
theorem bearingDegrees_of_not_same (h : ¬p.Same q) :
    p.bearingDegrees q = Trigonometry.toDegrees (p.toRadians.bearing q.toRadians) := by
  refine if_neg fun hsame ↦ h ?_
  rwa [Bool.and_eq_true] at hsame

/-! ### Half-open but for the seam -/

/-- **Bearings stay below a full turn exactly where they do not graze north.** This holds of places
on the sphere, in radians, and of all finite angles in degrees whose radians are distinct. What
grazes north has the full turn as its bearing. -/
theorem bearing_half_open_unless_grazing (hf : AngleFunctions.Ranged) :
    (∀ a b : LonLat Float, a.OnSphere → b.OnSphere →
      (a.Same b → a.bearing b = noBearing) ∧
        (¬a.Same b → 0.0 ≤ a.bearing b ∧ (a.bearing b < fullTurn ↔ ¬a.GrazesNorth b) ∧
          (a.GrazesNorth b → a.bearing b = fullTurn))) ∧
    ∀ p q : LonLat Float, p.IsFinite → q.IsFinite → ¬p.toRadians.Same q.toRadians →
      0.0 ≤ p.bearingDegrees q ∧
        (p.bearingDegrees q < 360.0 ↔ ¬p.toRadians.GrazesNorth q.toRadians) ∧
          (p.toRadians.GrazesNorth q.toRadians → p.bearingDegrees q = 360.0) := by
  refine ⟨fun a b ha hb ↦ ⟨bearing_of_same, fun hne ↦ ?_⟩, fun p q hp hq hne ↦ ?_⟩
  · obtain ⟨hnonneg, hgrazes, hoff⟩ := (a.headed b).range hf ha.moderate hb.moderate hne
    refine ⟨hnonneg, ⟨fun hlt h ↦ ?_, hoff⟩, hgrazes⟩
    rw [hgrazes h] at hlt
    exact Ordinate.lt_irrefl hlt
  · obtain ⟨hnonneg, hgrazes, hoff⟩ := (p.toRadians.headed q.toRadians).range hf
      (moderate_toRadians hp) (moderate_toRadians hq) hne
    rw [bearingDegrees_of_not_same fun h ↦ hne (h.toRadians hp hq)]
    -- the full turn in radians is converted to 360 exactly
    by_cases h : p.toRadians.GrazesNorth q.toRadians
    · rw [hgrazes h, toDegrees_fullTurn]
      exact ⟨by decide, ⟨fun hlt ↦ absurd hlt (by decide), fun hoff ↦ absurd h hoff⟩, fun _ ↦ rfl⟩
    · have hlt := hoff h
      exact ⟨zero_le_toDegrees hnonneg (Ordinate.le_of_lt hlt),
        ⟨fun _ ↦ h, fun _ ↦ toDegrees_lt hnonneg hlt⟩, fun hgrazes ↦ absurd hgrazes h⟩

end

/-- The functions of trigonometry, at angles so small that they are their own arc tangents and have
the cosine 1. -/
@[reducible]
def nearZero : AngleFunctions Float where
  sqrt := Float.sqrt
  sin := id
  cos _ := 1.0
  atan := clampToUnit
  acos := id

theorem ranged_nearZero : @AngleFunctions.Ranged nearZero := by
  have hquarter : (1.0 : Float) ≤ 1.5707963267948966 := by decide
  have hquarter' : (-1.5707963267948966 : Float) ≤ -1.0 := by decide
  have hcos : (-1.0 : Float) ≤ 1.0 ∧ (1.0 : Float) ≤ 1.0 := by decide
  refine @AngleFunctions.Ranged.mk nearZero (fun _ ↦ hcos) clampToUnit_mono
    (fun {v} h ↦ ?_) (fun {v} h ↦ ?_)
  · have hzero : ¬v < -1.0 ∧ ¬1.0 < v := by
      obtain ⟨hle, hge⟩ := LawfulOrdinate.beq_iff_le_ge.mp h
      exact ⟨Ordinate.not_lt_of_le (Ordinate.le_trans (by decide) hge),
        Ordinate.not_lt_of_le (Ordinate.le_trans hle (by decide))⟩
    show (clampToUnit v == 0.0) = true
    rwa [clampToUnit, if_neg hzero.1, if_neg hzero.2]
  · obtain ⟨hlower, hupper⟩ := clampToUnit_mem_of_isNumber h
    exact ⟨Ordinate.le_trans hquarter' hlower, Ordinate.le_trans hupper hquarter⟩

/-- A place that is no more than 1e-300 to the west of north. -/
theorem bearing_half_open_unless_grazing_west_of_north :
    letI := nearZero
    let a : LonLat Float := ⟨0.0, 0.0⟩
    let b : LonLat Float := ⟨-1e-300, 1e-9⟩
    AngleFunctions.Ranged ∧ a.OnSphere ∧ b.OnSphere ∧ a.bearing b = fullTurn ∧
      (a.IsFinite ∧ b.IsFinite ∧ ¬a.toRadians.Same b.toRadians) ∧ a.bearingDegrees b = 360.0 := by
  let _ := nearZero
  intro a b
  have ha : a.OnSphere := by constructor <;> decide +kernel
  have hb : b.OnSphere := by constructor <;> decide +kernel
  have hfinite : a.IsFinite := ⟨by decide, by decide⟩
  have hfinite' : b.IsFinite := ⟨by decide +kernel, by decide +kernel⟩
  have hne : ¬a.toRadians.Same b.toRadians := by decide +kernel
  obtain ⟨hradians, hdegrees⟩ := bearing_half_open_unless_grazing ranged_nearZero
  have hgrazes : a.GrazesNorth b := ⟨by decide +kernel, by decide +kernel, by decide +kernel⟩
  have hgrazes' : a.toRadians.GrazesNorth b.toRadians :=
    ⟨by decide +kernel, by decide +kernel, by decide +kernel⟩
  exact ⟨ranged_nearZero, ha, hb, ((hradians a b ha hb).2 (by decide +kernel)).2.2 hgrazes,
    ⟨hfinite, hfinite', hne⟩, (hdegrees a b hfinite hfinite' hne).2.2 hgrazes'⟩

/-- Its bearing is neither the answer for equal places nor below a full turn, in radians or in
degrees. -/
theorem not_half_open_west_of_north :
    letI := nearZero
    let a : LonLat Float := ⟨0.0, 0.0⟩
    let b : LonLat Float := ⟨-1e-300, 1e-9⟩
    AngleFunctions.Ranged ∧ a.OnSphere ∧ b.OnSphere ∧ ¬a.toRadians.Same b.toRadians ∧
      ¬(a.bearing b = noBearing ∨ 0.0 ≤ a.bearing b ∧ a.bearing b < fullTurn) ∧
      ¬(0.0 ≤ a.bearingDegrees b ∧ a.bearingDegrees b < 360.0) := by
  let _ := nearZero
  intro a b
  exact ⟨ranged_nearZero, by constructor <;> decide +kernel, by constructor <;> decide +kernel,
    by decide +kernel⟩

end LonLat

end Geospatial
