import Geospatial.Proofs.Geodesy.Exact
import Geospatial.Proofs.Geodesy.Headings

/-!
# Symmetries of bearings and distances

What becomes of a bearing when the way is turned round, mirrored in a meridian or moved along the
parallels, in exact arithmetic. The way itself is turned, mirrored or left as it is
(`offset_swap`, `offset_mirrored`, `offset_eastward`), so its slant is kept or changes its sign, and
the quadrant tells what is added.

**Any cosine, and any odd arc tangent.** A cosine scales both ways alike and is asked for nothing
more, but that it is positive where the signs of the two differences are read off a bearing. Of the
arc tangent `OddArctangent` says what is used.
-/

namespace Geospatial

open scoped ExactReals
open Trigonometry

/-- The arc tangent is odd, keeps signs and stays within a quarter turn on either side. -/
structure AngleFunctions.OddArctangent [AngleFunctions ℝ] : Prop where
  odd (x : ℝ) : AngleFunctions.atan (-x) = -AngleFunctions.atan x
  pos {x : ℝ} (h : 0 < x) : 0 < AngleFunctions.atan x
  bounded (x : ℝ) : |AngleFunctions.atan x| < Real.pi / 2

namespace LonLat

/-- The place on the other side of the meridian of longitude 0. -/
def mirrored {α : Type} [Neg α] (p : LonLat α) : LonLat α :=
  ⟨-p.lon, p.lat⟩

/-- The place moved along its parallel. -/
def eastward {α : Type} [Add α] (p : LonLat α) (d : α) : LonLat α :=
  ⟨p.lon + d, p.lat⟩

section

variable [AngleFunctions ℝ] {a b : LonLat ℝ} {r : ℝ}

/-! ### The way itself -/

theorem lonScale_comm (a b : LonLat ℝ) : a.lonScale b = b.lonScale a := by
  rw [lonScale, lonScale, add_comm]

/-- The way back is the way turned round. -/
theorem offset_swap (a b : LonLat ℝ) : b.offset a = -a.offset b := by
  rw [offset, offset, lonScale_comm b a, Prod.neg_mk, ← neg_mul, neg_sub, neg_sub]

/-- Mirrored at a meridian, the way goes as far to the other side and as far north. -/
theorem offset_mirrored (a b : LonLat ℝ) :
    a.mirrored.offset b.mirrored = (-(a.offset b).1, (a.offset b).2) := by
  have hscale : a.mirrored.lonScale b.mirrored = a.lonScale b := rfl
  rw [offset, offset, hscale, ← neg_mul, neg_sub]
  exact Prod.ext (congrArg (· * _) (neg_sub_neg b.lon a.lon)) rfl

/-- A turn of the sphere about its axis changes no offset. -/
theorem offset_eastward (a b : LonLat ℝ) (d : ℝ) :
    (a.eastward d).offset (b.eastward d) = a.offset b :=
  Prod.ext (congrArg (· * a.lonScale b) (add_sub_add_right_eq_sub b.lon a.lon d)) rfl

/-- The way back runs along the same line. -/
theorem slant_swap (a b : LonLat ℝ) : b.slant a = a.slant b := by
  rw [slant, slant, offset_swap, Prod.fst_neg, Prod.snd_neg, neg_div_neg_eq]

theorem angularDistance_eq (a b : LonLat ℝ) :
    a.angularDistance b =
      sqrt ((a.offset b).1 * (a.offset b).1 + (a.offset b).2 * (a.offset b).2) := rfl

/-- The offset of the way back is the opposite one, of the same length. -/
theorem angularDistance_comm (a b : LonLat ℝ) : a.angularDistance b = b.angularDistance a := by
  rw [angularDistance_eq b a, offset_swap, Prod.fst_neg, Prod.snd_neg, neg_mul_neg, neg_mul_neg]
  rfl

/-- A turn about the axis moves nothing apart. -/
theorem angularDistance_eastward (a b : LonLat ℝ) (d : ℝ) :
    (a.eastward d).angularDistance (b.eastward d) = a.angularDistance b := by
  rw [angularDistance_eq, offset_eastward]
  rfl

/-! ### Where the other place lies -/

/-- The constant of the program is the full turn itself. -/
theorem fullTurn_real : (fullTurn : ℝ) = 2 * Real.pi := by
  show (2.0 : ℝ) * Real.pi = _
  norm_num

theorem quarterTurn_real : (quarterTurn : ℝ) = Real.pi / 2 := by
  show Real.pi / (2.0 : ℝ) = _
  norm_num

theorem threeQuarterTurn_real : (threeQuarterTurn : ℝ) = 3 * Real.pi / 2 := by
  show (3.0 : ℝ) * Real.pi / (2.0 : ℝ) = _
  norm_num

/-- Where a distinct place lies, by exact comparisons, and the bearing that is told of it. -/
inductive Faces (a b : LonLat ℝ) : ℝ → Prop
  | west (hlat : a.lat = b.lat) (hlon : b.lon < a.lon) : Faces a b (3 * Real.pi / 2)
  | east (hlat : a.lat = b.lat) (hlon : a.lon < b.lon) : Faces a b (Real.pi / 2)
  | northeast (hnorth : 0 < (a.offset b).2) (heast : 0 ≤ (a.offset b).1) : Faces a b (a.slant b)
  | northwest (hnorth : 0 < (a.offset b).2) (heast : (a.offset b).1 < 0) :
      Faces a b (2 * Real.pi + a.slant b)
  | south (hnorth : (a.offset b).2 < 0) : Faces a b (Real.pi + a.slant b)

/-- The northward part vanishes along a parallel only. -/
theorem lat_ne_iff : (a.lat == b.lat) = false ↔ (a.offset b).2 ≠ 0 := by
  have hnorth : (a.offset b).2 = b.lat - a.lat := rfl
  rw [beq_eq_false_iff_ne, hnorth, sub_ne_zero, ne_comm]

/-- Each test of the program, read as where the way faces. -/
theorem Headed.faces (h : Headed a b r) (hne : a ≠ b) : Faces a b r := by
  cases h with
  | nowhere hlat hlon =>
    exact absurd (congrArg₂ LonLat.mk (beq_iff_eq.mp hlon) (beq_iff_eq.mp hlat)) hne
  | west hlat hlon hwest =>
    rw [threeQuarterTurn_real]
    exact .west (beq_iff_eq.mp hlat) hwest
  | east hlat hlon hwest =>
    rw [quarterTurn_real]
    have hlon' : a.lon ≠ b.lon := beq_eq_false_iff_ne.mp hlon
    exact .east (beq_iff_eq.mp hlat) (lt_of_le_of_ne (not_lt.mp hwest) hlon')
  | northeast hlat hnorth heast =>
    rw [Ordinate.real_zero] at hnorth heast
    exact .northeast hnorth heast
  | northwest hlat hnorth heast =>
    rw [Ordinate.real_zero] at hnorth heast
    rw [fullTurn_real]
    exact .northwest hnorth (not_le.mp heast)
  | south hlat hnorth =>
    rw [Ordinate.real_zero] at hnorth
    exact .south (lt_of_le_of_ne (not_lt.mp hnorth) (lat_ne_iff.mp hlat))

/-- And the other way about: how the way faces decides each test. -/
theorem Faces.headed (h : Faces a b r) : Headed a b r := by
  cases h with
  | west hlat hlon =>
    rw [← threeQuarterTurn_real]
    exact .west (beq_iff_eq.mpr hlat) (beq_eq_false_iff_ne.mpr hlon.ne') hlon
  | east hlat hlon =>
    rw [← quarterTurn_real]
    exact .east (beq_iff_eq.mpr hlat) (beq_eq_false_iff_ne.mpr hlon.ne) hlon.not_gt
  | northeast hnorth heast =>
    refine .northeast (lat_ne_iff.mpr hnorth.ne') ?_ ?_
    · rwa [Ordinate.real_zero]
    · rwa [Ordinate.real_zero]
  | northwest hnorth heast =>
    rw [← fullTurn_real]
    refine .northwest (lat_ne_iff.mpr hnorth.ne') ?_ ?_
    · rwa [Ordinate.real_zero]
    · rwa [Ordinate.real_zero, not_le]
  | south hnorth =>
    refine .south (lat_ne_iff.mpr hnorth.ne) ?_
    rw [Ordinate.real_zero]
    exact hnorth.not_gt

/-- The bearing is the only one that the way faces. -/
theorem Faces.bearing_eq (h : Faces a b r) : a.bearing b = r :=
  h.headed.bearing_eq

/-! ### The way back, the mirror image and the way moved along -/

/-- **On the way back the bearing is half a turn away.** The opposite of a bearing in the eastern
half is in the western half, and due north and due south are opposite to each other. -/
theorem Faces.swap (h : Faces a b r) : Faces b a (r + Real.pi) ∨ Faces b a (r - Real.pi) := by
  have hback := offset_swap a b
  have hslant := slant_swap a b
  cases h with
  | west hlat hlon =>
    right
    rw [show 3 * Real.pi / 2 - Real.pi = Real.pi / 2 by ring]
    exact .east hlat.symm hlon
  | east hlat hlon =>
    left
    rw [show Real.pi / 2 + Real.pi = 3 * Real.pi / 2 by ring]
    exact .west hlat.symm hlon
  | northeast hnorth heast =>
    left
    rw [← hslant, add_comm]
    exact .south (by rw [hback]; exact neg_neg_of_pos hnorth)
  | northwest hnorth heast =>
    right
    rw [← hslant, show 2 * Real.pi + b.slant a - Real.pi = Real.pi + b.slant a by ring]
    exact .south (by rw [hback]; exact neg_neg_of_pos hnorth)
  | south hnorth =>
    have hnorth' : 0 < (b.offset a).2 := by
      rw [hback]
      exact neg_pos_of_neg hnorth
    -- going back north, the side decides whether half a turn is added or taken off
    rcases lt_or_ge (b.offset a).1 0 with heast | heast
    · left
      rw [← hslant, show Real.pi + b.slant a + Real.pi = 2 * Real.pi + b.slant a by ring]
      exact .northwest hnorth' heast
    · right
      rw [← hslant, add_sub_cancel_left]
      exact .northeast hnorth' heast

section

variable (hf : AngleFunctions.OddArctangent)

include hf

theorem slant_mirrored (a b : LonLat ℝ) : a.mirrored.slant b.mirrored = -a.slant b := by
  rw [slant, slant, offset_mirrored, neg_div]
  exact hf.odd _

/-- The arc tangent lies on the side of its argument. -/
theorem atan_pos_iff {x : ℝ} : 0 < atan x ↔ 0 < x := by
  refine ⟨fun h ↦ ?_, hf.pos⟩
  have hodd : atan (-x) = -atan x := hf.odd x
  rcases lt_trichotomy x 0 with hneg | rfl | hpos
  · have hopposite := hf.pos (neg_pos_of_neg hneg)
    exact absurd (hopposite.trans_eq hodd) (by linarith)
  · rw [neg_zero] at hodd
    linarith
  · exact hpos

theorem atan_neg_iff {x : ℝ} : atan x < 0 ↔ x < 0 := by
  have hodd : atan (-x) = -atan x := hf.odd x
  rw [← neg_pos, ← hodd, atan_pos_iff hf, neg_pos]

/-- A slant is less than a quarter turn either way. -/
theorem slant_mem (a b : LonLat ℝ) : -(Real.pi / 2) < a.slant b ∧ a.slant b < Real.pi / 2 :=
  abs_lt.mp (hf.bounded _)

/-- Northwards the slant has the sign of the way east. -/
theorem slant_of_north (hnorth : 0 < (a.offset b).2) :
    (0 < a.slant b ↔ 0 < (a.offset b).1) ∧ (a.slant b < 0 ↔ (a.offset b).1 < 0) := by
  constructor
  · rw [slant, atan_pos_iff hf, div_pos_iff_of_pos_right hnorth]
  · rw [slant, atan_neg_iff hf, div_lt_iff₀ hnorth, zero_mul]

/-- **A mirror image has the bearing that the mirror shows,** due north alone being its own. -/
theorem Faces.mirrored (h : Faces a b r) :
    Faces a.mirrored b.mirrored (if r = 0 then 0 else 2 * Real.pi - r) := by
  have hpi := Real.pi_pos
  have hoffset := offset_mirrored a b
  have hslant := slant_mirrored hf a b
  obtain ⟨hlower, hupper⟩ := slant_mem hf a b
  cases h with
  | west hlat hlon =>
    rw [if_neg (by positivity), show 2 * Real.pi - 3 * Real.pi / 2 = Real.pi / 2 by ring]
    exact .east hlat (neg_lt_neg hlon)
  | east hlat hlon =>
    rw [if_neg (by positivity), show 2 * Real.pi - Real.pi / 2 = 3 * Real.pi / 2 by ring]
    exact .west hlat (neg_lt_neg hlon)
  | northeast hnorth heast =>
    have hnorth' : 0 < (a.mirrored.offset b.mirrored).2 := by rwa [hoffset]
    rcases heast.lt_or_eq with hpos | hzero
    · have hslant' := ((slant_of_north hf hnorth).1.mpr hpos).ne'
      rw [if_neg hslant', sub_eq_add_neg, ← hslant]
      refine .northwest hnorth' ?_
      rw [hoffset]
      exact neg_neg_of_pos hpos
    -- due north is its own mirror image, and its bearing is zero and not a full turn
    · have hslant' : a.slant b = 0 := by
        obtain ⟨hpos, hneg⟩ := slant_of_north hf hnorth
        exact le_antisymm (not_lt.mp (hpos.not.mpr hzero.not_lt))
          (not_lt.mp (hneg.not.mpr hzero.not_gt))
      rw [if_pos hslant', ← neg_zero, ← hslant', ← hslant]
      refine .northeast hnorth' ?_
      rw [hoffset, ← hzero, neg_zero]
  | northwest hnorth heast =>
    rw [if_neg (by linarith), show 2 * Real.pi - (2 * Real.pi + a.slant b) = -a.slant b by ring,
      ← hslant]
    refine .northeast ?_ ?_
    · rwa [hoffset]
    · rw [hoffset]
      exact neg_nonneg.mpr heast.le
  | south hnorth =>
    rw [if_neg (by linarith),
      show 2 * Real.pi - (Real.pi + a.slant b) = Real.pi + -a.slant b by ring, ← hslant]
    refine .south ?_
    rwa [hoffset]

/-! ### Quadrants -/

/-- The eastern half of the bearings. South of a place the northward part is negative, so there a
negative slant tells east. -/
theorem Faces.mem_east_iff (h : Faces a b r) (hscale : 0 < a.lonScale b) :
    r ∈ Set.Ioo 0 Real.pi ↔ a.lon < b.lon := by
  have hpi := Real.pi_pos
  have heast_pos : 0 < (a.offset b).1 ↔ a.lon < b.lon :=
    (mul_pos_iff_of_pos_right hscale).trans sub_pos
  obtain ⟨hlower, hupper⟩ := slant_mem hf a b
  rw [Set.mem_Ioo]
  cases h with
  | west hlat hlon => exact iff_of_false (fun h ↦ by linarith [h.2]) hlon.not_gt
  | east hlat hlon => exact iff_of_true ⟨by positivity, by linarith⟩ hlon
  | northeast hnorth heast =>
    rw [← heast_pos, ← (slant_of_north hf hnorth).1]
    exact and_iff_left (by linarith)
  | northwest hnorth heast =>
    exact iff_of_false (fun h ↦ by linarith [h.2]) (heast_pos.not.mp heast.not_gt)
  | south hnorth =>
    -- southwards the slant and the way east have opposite signs
    have hneg : a.slant b < 0 ↔ 0 < (a.offset b).1 := by
      rw [slant, atan_neg_iff hf, div_lt_iff_of_neg hnorth, zero_mul]
    rw [← heast_pos, ← hneg]
    constructor
    · rintro ⟨-, h⟩
      linarith
    · intro h
      exact ⟨by linarith, by linarith⟩

/-- The southern half of the bearings. -/
theorem Faces.mem_south_iff (h : Faces a b r) :
    r ∈ Set.Ioo (Real.pi / 2) (3 * Real.pi / 2) ↔ b.lat < a.lat := by
  have hpi := Real.pi_pos
  have hnorth_neg : (a.offset b).2 < 0 ↔ b.lat < a.lat := sub_neg
  obtain ⟨hlower, hupper⟩ := slant_mem hf a b
  rw [Set.mem_Ioo, ← hnorth_neg]
  cases h with
  | west hlat hlon =>
    exact iff_of_false (fun h ↦ h.2.false) (hnorth_neg.not.mpr hlat.not_gt)
  | east hlat hlon =>
    exact iff_of_false (fun h ↦ h.1.false) (hnorth_neg.not.mpr hlat.not_gt)
  | northeast hnorth heast => exact iff_of_false (fun h ↦ by linarith [h.1]) hnorth.not_gt
  | northwest hnorth heast => exact iff_of_false (fun h ↦ by linarith [h.2]) hnorth.not_gt
  | south hnorth => exact iff_of_true ⟨by linarith, by linarith⟩ hnorth

end

/-! ### All together -/

/-- Places that are moved along alike are headed alike, distinct or not. -/
theorem Headed.eastward (h : Headed a b r) (d : ℝ) : Headed (a.eastward d) (b.eastward d) r := by
  have hoffset := offset_eastward a b d
  have hslant : (a.eastward d).slant (b.eastward d) = a.slant b := by
    rw [slant, hoffset, slant]
  have hlon_eq : ((a.eastward d).lon == (b.eastward d).lon) = (a.lon == b.lon) := by
    rw [Bool.eq_iff_iff, beq_iff_eq, beq_iff_eq]
    exact add_left_inj d
  have hlon_lt : (b.eastward d).lon < (a.eastward d).lon ↔ b.lon < a.lon :=
    add_lt_add_iff_right d
  cases h with
  | nowhere hlat hlon => exact .nowhere hlat (hlon_eq.trans hlon)
  | west hlat hlon hwest => exact .west hlat (hlon_eq.trans hlon) (hlon_lt.mpr hwest)
  | east hlat hlon hwest => exact .east hlat (hlon_eq.trans hlon) (hlon_lt.not.mpr hwest)
  | northeast hlat hnorth heast =>
    rw [← hslant]
    exact .northeast hlat (hoffset ▸ hnorth) (hoffset ▸ heast)
  | northwest hlat hnorth heast =>
    rw [← hslant]
    exact .northwest hlat (hoffset ▸ hnorth) (hoffset ▸ heast)
  | south hlat hnorth =>
    rw [← hslant]
    exact .south hlat (hoffset ▸ hnorth)

/-- **The symmetries of bearings and distances,** in exact arithmetic, whatever the cosine is and
whichever odd function that keeps signs and stays within a quarter turn the arc tangent is.

* Of two distinct places each has a bearing from the other, and the two are half a turn apart.
* Mirrored in a meridian, a bearing becomes what it lacks to a full turn; due north stays.
* Two places moved along their parallels by the same amount, distinct or not, keep their bearing and
  their distance.
* A distance is the same from either place.
* Where the cosine of the mean latitude is positive, a bearing is in the eastern half exactly if the
  other longitude is greater, and in the southern half exactly if the other latitude is smaller. -/
theorem bearing_symmetries (hf : AngleFunctions.OddArctangent) (a b : LonLat ℝ) :
    (a ≠ b →
      |b.bearing a - a.bearing b| = Real.pi ∧
      (a.bearing b ≠ 0 → a.mirrored.bearing b.mirrored = 2 * Real.pi - a.bearing b) ∧
      (a.bearing b = 0 → a.mirrored.bearing b.mirrored = 0) ∧
      (0 < a.lonScale b →
        (a.bearing b ∈ Set.Ioo 0 Real.pi ↔ a.lon < b.lon) ∧
        (a.bearing b ∈ Set.Ioo (Real.pi / 2) (3 * Real.pi / 2) ↔ b.lat < a.lat))) ∧
    (∀ d, (a.eastward d).bearing (b.eastward d) = a.bearing b ∧
      (a.eastward d).angularDistance (b.eastward d) = a.angularDistance b) ∧
    a.angularDistance b = b.angularDistance a := by
  refine ⟨fun hne ↦ ?_, fun d ↦ ⟨((headed a b).eastward d).bearing_eq,
    angularDistance_eastward a b d⟩, angularDistance_comm a b⟩
  have hfaces := (headed a b).faces hne
  have hmirrored := (hfaces.mirrored hf).bearing_eq
  refine ⟨?_, fun hzero ↦ hmirrored.trans (if_neg hzero),
    fun hzero ↦ hmirrored.trans (if_pos hzero),
    fun hscale ↦ ⟨hfaces.mem_east_iff hf hscale, hfaces.mem_south_iff hf⟩⟩
  rcases hfaces.swap with hback | hback
  · rw [hback.bearing_eq, add_sub_cancel_left, abs_of_pos Real.pi_pos]
  · rw [hback.bearing_eq, sub_sub_cancel_left, abs_neg, abs_of_pos Real.pi_pos]

end

/-- From a place on the equator to one southeast of it, with the functions that bear these names.
The eastward part of the distance is shrunk by the cosine of the mean latitude, there and back. -/
theorem bearing_symmetries_southeast :
    let a : LonLat ℝ := ⟨0, 0⟩
    let b : LonLat ℝ := ⟨1, -1⟩
    (AngleFunctions.OddArctangent ∧ a ≠ b ∧ 0 < a.lonScale b) ∧
      a.bearing b ∈ Set.Ioo 0 Real.pi ∧
      a.bearing b ∈ Set.Ioo (Real.pi / 2) (3 * Real.pi / 2) ∧
      |b.bearing a - a.bearing b| = Real.pi ∧
      a.mirrored.bearing b.mirrored = 2 * Real.pi - a.bearing b ∧
      (a.eastward 5).bearing (b.eastward 5) = a.bearing b ∧
      a.angularDistance b = √(Real.cos (1 / 2) ^ 2 + 1) ∧
      b.angularDistance a = √(Real.cos (1 / 2) ^ 2 + 1) ∧
      (a.eastward 5).angularDistance (b.eastward 5) = √(Real.cos (1 / 2) ^ 2 + 1) := by
  intro a b
  have hf : AngleFunctions.OddArctangent :=
    ⟨Real.arctan_neg, Real.arctan_pos.mpr,
      fun x ↦ abs_lt.mpr ⟨Real.neg_pi_div_two_lt_arctan x, Real.arctan_lt_pi_div_two x⟩⟩
  have hne : a ≠ b := fun h ↦ zero_ne_one (congrArg lon h)
  have hcos : a.lonScale b = Real.cos (1 / 2) := by
    have hmean : ((0 : ℝ) + -1) * 0.5 = -(1 / 2) := by norm_num
    show Real.cos ((0 + -1) * 0.5) = _
    rw [hmean, Real.cos_neg]
  have hscale : 0 < a.lonScale b := by
    rw [hcos]
    exact Real.cos_pos_of_le_one (by norm_num [abs_of_pos])
  have hdistance : a.angularDistance b = √(Real.cos (1 / 2) ^ 2 + 1) := by
    show √((1 - 0) * a.lonScale b * ((1 - 0) * a.lonScale b) + (-1 - 0) * (-1 - 0)) = _
    rw [hcos]
    congr 1
    ring
  obtain ⟨hdistinct, hmoved, hswap⟩ := bearing_symmetries hf a b
  obtain ⟨hback, hmirrored, -, hhalves⟩ := hdistinct hne
  obtain ⟨heast, hsouth⟩ := hhalves hscale
  have heastern : a.bearing b ∈ Set.Ioo 0 Real.pi := heast.mpr zero_lt_one
  exact ⟨⟨hf, hne, hscale⟩, heastern, hsouth.mpr neg_one_lt_zero, hback,
    hmirrored heastern.1.ne', (hmoved 5).1, hdistance, hswap.symm.trans hdistance,
    (hmoved 5).2.trans hdistance⟩

end LonLat

end Geospatial
