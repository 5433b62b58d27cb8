import Geospatial.Geodesy.Bearing

/-!
# Where a place lies, and the bearing that is told

A bearing is read off the way from one place to another by its quadrant: the angle from the
meridian (`LonLat.slant`) is the same for a way and for the way back, and what is added to it tells
the two apart. `Headed` lists the six answers, each beside the tests that lead to it.

**One answer for each way.** The tests of no two answers can be passed at once, so an answer is
known as soon as its tests are (`Headed.bearing_eq`). That is how the bearings of two ways are
compared: the tests that one of them has passed say which ones the other will.
-/

namespace Geospatial

namespace LonLat

variable {α : Type} [Trigonometry α]

open Trigonometry

/-- The angle between the meridian and the way from one place to another, whichever way round either
of them runs. -/
def slant (a b : LonLat α) : α :=
  atan ((a.offset b).1 / (a.offset b).2)

/-- Where the other place lies, and the bearing that is told of it. -/
inductive Headed (a b : LonLat α) : α → Prop
  | nowhere (hlat : (a.lat == b.lat) = true) (hlon : (a.lon == b.lon) = true) :
      Headed a b noBearing
  | west (hlat : (a.lat == b.lat) = true) (hlon : (a.lon == b.lon) = false)
      (hwest : b.lon < a.lon) : Headed a b threeQuarterTurn
  | east (hlat : (a.lat == b.lat) = true) (hlon : (a.lon == b.lon) = false)
      (hwest : ¬b.lon < a.lon) : Headed a b quarterTurn
  | northeast (hlat : (a.lat == b.lat) = false) (hnorth : 0.0 < (a.offset b).2)
      (heast : 0.0 ≤ (a.offset b).1) : Headed a b (a.slant b)
  | northwest (hlat : (a.lat == b.lat) = false) (hnorth : 0.0 < (a.offset b).2)
      (heast : ¬0.0 ≤ (a.offset b).1) : Headed a b (fullTurn + a.slant b)
  | south (hlat : (a.lat == b.lat) = false) (hnorth : ¬0.0 < (a.offset b).2) :
      Headed a b (pi + a.slant b)

variable {a b : LonLat α} {r : α}

/-- Off the parallels the bearing is the slant, turned into its quadrant. -/
theorem bearing_off_parallel (hlat : (a.lat == b.lat) = false) :
    a.bearing b =
      if 0.0 < (a.offset b).2 then
        if 0.0 ≤ (a.offset b).1 then a.slant b else fullTurn + a.slant b
      else pi + a.slant b :=
  if_neg (Bool.eq_false_iff.mp hlat)

/-- Along a parallel the bearing is one of three constants, and no function is called. -/
theorem bearing_along_parallel (hlat : (a.lat == b.lat) = true) :
    a.bearing b =
      if a.lon == b.lon then noBearing
      else if b.lon < a.lon then threeQuarterTurn
      else quarterTurn :=
  if_pos hlat

/-- **The bearing is one of the six answers.** -/
theorem headed (a b : LonLat α) : Headed a b (a.bearing b) := by
  cases hlat : a.lat == b.lat with
  | true =>
    rw [bearing_along_parallel hlat]
    split
    next hlon => exact .nowhere hlat hlon
    next hlon =>
      split
      next hwest => exact .west hlat (Bool.eq_false_iff.mpr hlon) hwest
      next hwest => exact .east hlat (Bool.eq_false_iff.mpr hlon) hwest
  | false =>
    rw [bearing_off_parallel hlat]
    split
    next hnorth =>
      split
      next heast => exact .northeast hlat hnorth heast
      next heast => exact .northwest hlat hnorth heast
    next hnorth => exact .south hlat hnorth

/-- **The tests decide the answer.** -/
theorem Headed.bearing_eq (h : Headed a b r) : a.bearing b = r := by
  cases h with
  | nowhere hlat hlon => rw [bearing_along_parallel hlat, if_pos hlon]
  | west hlat hlon hwest =>
    rw [bearing_along_parallel hlat, if_neg (Bool.eq_false_iff.mp hlon), if_pos hwest]
  | east hlat hlon hwest =>
    rw [bearing_along_parallel hlat, if_neg (Bool.eq_false_iff.mp hlon), if_neg hwest]
  | northeast hlat hnorth heast =>
    rw [bearing_off_parallel hlat, if_pos hnorth, if_pos heast]
  | northwest hlat hnorth heast =>
    rw [bearing_off_parallel hlat, if_pos hnorth, if_neg heast]
  | south hlat hnorth => rw [bearing_off_parallel hlat, if_neg hnorth]

end LonLat

end Geospatial
