import Geospatial.Proofs.Binary.Midpoint
import Geospatial.Proofs.Bounds.Finite

/-!
# The centre of a box

The centre is halfway between the bounds on both axes, and is told by their sums. As long as no sum
overflows, the centre is a point of the box (`Binary.midpoint_between`). That holds of boxes of any
size, down to those whose bounds are neighbours.

**A sum may overflow although half of it is within the range.** Bounds on one side of zero and near
the greatest double have an infinite sum, and half of that is infinite too: the centre is then no
place at all. `centreWithin_iff` says that nothing else goes wrong.
-/

namespace Geospatial.Bounds

open Binary

/-- There is a centre, its ordinates are finite, and the box covers it. -/
def CentreWithin (a : Bounds Float) : Prop :=
  ∃ c, a.centre = some c ∧ (c.x.isFinite = true ∧ c.y.isFinite = true) ∧
    a.coversPoint c.x c.y = true

variable {a : Bounds Float}

theorem centre_of_not_isNull (h : a.isNull = false) :
    a.centre = some { x := (a.minX + a.maxX) / 2.0, y := (a.minY + a.maxY) / 2.0 } := by
  rw [centre, h]
  rfl

/-- **The centre is in the box unless a sum of bounds overflows.** Where one does, that ordinate of
the centre is infinite. -/
theorem centreWithin_iff (han : a.isNull = false) (ha : a.InOrder) (hfinite : a.IsFinite) :
    (a.CentreWithin ↔ SumInRange a.minX a.maxX ∧ SumInRange a.minY a.maxY) ∧
      ∃ c, a.centre = some c ∧
        (¬SumInRange a.minX a.maxX → c.x.isInf = true) ∧
        (¬SumInRange a.minY a.maxY → c.y.isInf = true) := by
  have hcentre := centre_of_not_isNull han
  refine ⟨⟨?_, ?_⟩, _, hcentre, isInf_midpoint hfinite.minX hfinite.maxX,
    isInf_midpoint hfinite.minY hfinite.maxY⟩
  · rintro ⟨c, hc, ⟨hx, hy⟩, -⟩
    obtain rfl := Option.some.inj (hcentre.symm.trans hc)
    exact ⟨(isFinite_midpoint_iff hfinite.minX hfinite.maxX ha.x).mp hx,
      (isFinite_midpoint_iff hfinite.minY hfinite.maxY ha.y).mp hy⟩
  · rintro ⟨hx, hy⟩
    refine ⟨_, hcentre, ⟨(isFinite_midpoint_iff hfinite.minX hfinite.maxX ha.x).mpr hx,
      (isFinite_midpoint_iff hfinite.minY hfinite.maxY ha.y).mpr hy⟩, ?_⟩
    exact coversPoint_iff.mpr ⟨han, midpoint_between ha.x hx, midpoint_between ha.y hy⟩

/-- A box between neighbours above zero along x, and between the least and the greatest double along
y: the centre is rounded to a bound on the one axis and is zero on the other. -/
theorem centreWithin_neighbours :
    ∃ a : Bounds Float, a = ⟨false, 5e-324, 1e-323, -1.7976931348623157e308,
        1.7976931348623157e308⟩ ∧
      (a.InOrder ∧ a.IsFinite) ∧ a.CentreWithin ∧
      (a.minX + a.maxX) / 2.0 = a.maxX ∧ (a.minY + a.maxY) / 2.0 = 0.0 := by
  let a : Bounds Float :=
    ⟨false, 5e-324, 1e-323, -1.7976931348623157e308, 1.7976931348623157e308⟩
  have horder : a.InOrder := ⟨by decide +kernel, by decide +kernel⟩
  have hfinite : a.IsFinite :=
    ⟨by decide +kernel, by decide +kernel, by decide +kernel, by decide +kernel⟩
  have hx : SumInRange a.minX a.maxX :=
    (sumInRange_iff hfinite.minX hfinite.maxX).mpr (by decide +kernel)
  have hy : SumInRange a.minY a.maxY :=
    (sumInRange_iff hfinite.minY hfinite.maxY).mpr (by decide +kernel)
  exact ⟨a, rfl, ⟨horder, hfinite⟩, (centreWithin_iff rfl horder hfinite).1.mpr ⟨hx, hy⟩,
    by decide +kernel, by decide +kernel⟩

/-- A box whose centre on the line is a double within the bounds, and is infinite as computed. -/
theorem not_centreWithin_large :
    ∃ a : Bounds Float, a = ⟨false, 1e308, 1.7e308, 0.0, 1.0⟩ ∧
      a.InOrder ∧ a.IsFinite ∧ a.coversPoint 1.35e308 0.5 = true ∧
      (a.minX + a.maxX) / 2.0 = Ordinate.infinity ∧ ¬a.CentreWithin := by
  have hinfinite : ¬((1e308 + 1.7e308) / 2.0 : Float).isFinite = true := by decide +kernel
  refine ⟨_, rfl, ⟨by decide +kernel, by decide⟩,
    ⟨by decide +kernel, by decide +kernel, by decide, by decide⟩, by decide +kernel,
    by decide +kernel, ?_⟩
  rintro ⟨c, hc, ⟨hx, -⟩, -⟩
  obtain rfl := Option.some.inj hc
  exact hinfinite hx

end Geospatial.Bounds
