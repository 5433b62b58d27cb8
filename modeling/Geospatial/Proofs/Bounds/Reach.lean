import Geospatial.Proofs.Envelope.Resizing

/-!
# Growing a box to reach another

To find what lies within some distance of a box, a caller grows the box by that distance and asks
what intersects the grown box, which takes comparisons alone. In exact arithmetic the answer misses
nothing and is not far off:

* `reaches_of_distance_le` — a box within the distance intersects the grown box;
* `sq_distance_le_of_reaches` — a box that intersects the grown box is no farther than the diagonal
  of a square over the distance.

**The grown box asks each axis on its own.** It meets the other box exactly when the gap is at most
the distance along x and along y (`reaches_iff_gaps`), where the distance itself combines the two
gaps (`distance_eq_sqrt`). So what is let through in excess lies off the corners, and the bound is
attained there.

**A null box reaches nothing and is reached by nothing,** for growing leaves it null and its
distance to any box is infinite.
-/

namespace Geospatial

namespace Bounds

/-! ### One axis -/

section Axis

variable {minA maxA minB maxB d : ℝ}

/-- Growing a span by what separates it from another closes the gap, and nothing less does. -/
theorem gap_le_iff (hA : minA ≤ maxA) (hB : minB ≤ maxB) (hd : 0 ≤ d) :
    gap (minA : EReal) maxA minB maxB ≤ d ↔
      ¬(maxA : EReal) + d < minB ∧ ¬(maxB : EReal) < minA - d := by
  simp only [gap, Ordinate.exact_zero, ← EReal.coe_add, ← EReal.coe_sub, ← EReal.coe_zero,
    EReal.coe_lt_coe_iff, not_lt]
  split
  next h =>
    have hother : minA - d ≤ maxB := by linarith
    rw [EReal.coe_le_coe_iff, and_iff_left hother, sub_le_iff_le_add']
  next h =>
    split
    next h' =>
      have hother : minB ≤ maxA + d := by linarith
      rw [EReal.coe_le_coe_iff, and_iff_right hother, sub_le_comm]
    next h' =>
      have hside : minB ≤ maxA + d := by linarith
      have hother : minA - d ≤ maxB := by linarith
      exact iff_of_true (EReal.coe_le_coe_iff.mpr hd) ⟨hside, hother⟩

end Axis

/-! ### Both axes -/

/-- A box that is not null has real bounds. -/
def Exact (a : Bounds EReal) : Prop :=
  a.isNull = false → a.OfReals

end Bounds

namespace Envelope

variable {a : Envelope EReal} {b : Bounds EReal} {d : ℝ}

/-- An exact box that is not null has four real bounds in order. -/
theorem exists_eq_of_exact (haw : a.bounds.WellFormed) (ha : a.bounds.Exact)
    (han : a.isNull = false) :
    ∃ minX maxX minY maxY : ℝ, a = ⟨minX, maxX, minY, maxY⟩ ∧ minX ≤ maxX ∧ minY ≤ maxY := by
  obtain ⟨minX, maxX, minY, maxY, heq, hX, hY⟩ := (ha han).exists_eq han haw
  obtain ⟨_, _, _, _⟩ := a
  simp only [bounds, Bounds.mk.injEq] at heq
  obtain ⟨-, rfl, rfl, rfl, rfl⟩ := heq
  exact ⟨minX, maxX, minY, maxY, rfl, hX, hY⟩

section

variable (haw : a.bounds.WellFormed) (ha : a.bounds.Exact) (han : a.isNull = false) (hd : 0 ≤ d)

include haw ha han hd

/-- Outward, no bound passes another. -/
theorem inOrder_grown : (a.grown d d).bounds.InOrder := by
  obtain ⟨minX, maxX, minY, maxY, rfl, hX, hY⟩ := exists_eq_of_exact haw ha han
  refine ⟨EReal.coe_le_coe_iff.mpr ?_, EReal.coe_le_coe_iff.mpr ?_⟩
  · linarith
  · linarith

theorem expandByDistance_eq_grown : a.expandByDistance d = a.grown d d := by
  rw [expandByDistance, expandBy_eq_orNull han]
  exact orNull_of_not_inverted (not_inverted_iff.mpr (inOrder_grown haw ha han hd))

theorem isNull_expandByDistance : (a.expandByDistance d).isNull = false := by
  rw [expandByDistance_eq_grown haw ha han hd]
  exact isNull_of_inOrder (inOrder_grown haw ha han hd)

/-- **Growing outward covers what was there.** -/
theorem covers_expandByDistance : (a.expandByDistance d).bounds.covers a.bounds = true := by
  refine Bounds.covers_iff.mpr ⟨⟨isNull_expandByDistance haw ha han hd, han⟩, ?_⟩
  rw [expandByDistance_eq_grown haw ha han hd]
  obtain ⟨minX, maxX, minY, maxY, rfl, -, -⟩ := exists_eq_of_exact haw ha han
  refine ⟨⟨EReal.coe_le_coe_iff.mpr ?_, EReal.coe_le_coe_iff.mpr ?_⟩,
    EReal.coe_le_coe_iff.mpr ?_, EReal.coe_le_coe_iff.mpr ?_⟩
  all_goals linarith

variable (hbw : b.WellFormed) (hb : b.Exact) (hbn : b.isNull = false)

include hbw hb hbn

/-- **The grown box asks each axis on its own.** -/
theorem reaches_iff_gaps :
    (a.expandByDistance d).bounds.intersects b = true ↔
      a.bounds.gapX b ≤ d ∧ a.bounds.gapY b ≤ d := by
  rw [Bounds.intersects_iff, bounds_isNull, isNull_expandByDistance haw ha han hd, hbn,
    and_iff_right ⟨rfl, rfl⟩, expandByDistance_eq_grown haw ha han hd]
  obtain ⟨aMinX, aMaxX, aMinY, aMaxY, rfl, haX, haY⟩ := exists_eq_of_exact haw ha han
  obtain ⟨bMinX, bMaxX, bMinY, bMaxY, rfl, hbX, hbY⟩ := (hb hbn).exists_eq hbn hbw
  exact and_congr (Bounds.gap_le_iff haX hbX hd).symm (Bounds.gap_le_iff haY hbY hd).symm

omit hd in
/-- The two gaps are real, and the distance is the root of their squares. -/
theorem exists_gaps :
    ∃ gx gy : ℝ, a.bounds.gapX b = gx ∧ a.bounds.gapY b = gy ∧ 0 ≤ gx ∧ 0 ≤ gy ∧
      a.bounds.distance b = (√(gx ^ 2 + gy ^ 2) : ℝ) := by
  obtain ⟨aMinX, aMaxX, aMinY, aMaxY, rfl, haX, haY⟩ := exists_eq_of_exact haw ha han
  obtain ⟨bMinX, bMaxX, bMinY, bMaxY, rfl, hbX, hbY⟩ := (hb hbn).exists_eq hbn hbw
  obtain ⟨px, qx, -, -, hx⟩ := Bounds.exists_gap_eq haX hbX
  obtain ⟨py, qy, -, -, hy⟩ := Bounds.exists_gap_eq haY hbY
  exact ⟨_, _, hx, hy, abs_nonneg _, abs_nonneg _,
    Bounds.distance_eq_sqrt han hbn hx hy (abs_nonneg _) (abs_nonneg _)⟩

/-- **Nothing within the distance is missed:** neither gap is more than the distance. -/
theorem reaches_of_distance_le (h : a.bounds.distance b ≤ d) :
    (a.expandByDistance d).bounds.intersects b = true := by
  obtain ⟨gx, gy, hx, hy, hgx, hgy, hdistance⟩ := exists_gaps haw ha han hbw hb hbn
  rw [hdistance, EReal.coe_le_coe_iff, Real.sqrt_le_left hd] at h
  rw [reaches_iff_gaps haw ha han hd hbw hb hbn, hx, hy, EReal.coe_le_coe_iff,
    EReal.coe_le_coe_iff]
  constructor
  · exact abs_le_of_sq_le_sq' (by linarith [sq_nonneg gy]) hd |>.2
  · exact abs_le_of_sq_le_sq' (by linarith [sq_nonneg gx]) hd |>.2

/-- **What is let through is within the diagonal.** -/
theorem sq_distance_le_of_reaches
    (h : (a.expandByDistance d).bounds.intersects b = true) :
    ∃ r : ℝ, a.bounds.distance b = r ∧ 0 ≤ r ∧ r ^ 2 ≤ 2 * d ^ 2 := by
  obtain ⟨gx, gy, hx, hy, hgx, hgy, hdistance⟩ := exists_gaps haw ha han hbw hb hbn
  rw [reaches_iff_gaps haw ha han hd hbw hb hbn, hx, hy, EReal.coe_le_coe_iff,
    EReal.coe_le_coe_iff] at h
  obtain ⟨hlex, hley⟩ := h
  refine ⟨_, hdistance, Real.sqrt_nonneg _, ?_⟩
  rw [Real.sq_sqrt (by positivity), two_mul]
  gcongr

end

/-- **Nothing reaches a null box, at no distance.** -/
theorem not_reaches_of_isNull (h : a.isNull = true ∨ b.isNull = true) (d : ℝ) :
    (a.expandByDistance d).bounds.intersects b = false ∧ ¬a.bounds.distance b ≤ d := by
  have hfar : ¬(⊤ : EReal) ≤ d := (EReal.coe_lt_top d).not_ge
  rcases h with han | hbn
  · rw [expandByDistance, expandBy_of_isNull han, Bounds.distance_of_isNull_left han]
    exact ⟨Bounds.intersects_of_isNull_left han, hfar⟩
  · rw [Bounds.distance_of_isNull_right hbn]
    exact ⟨Bounds.intersects_of_isNull_right hbn, hfar⟩

/-- **A box grown by a distance is a safe filter for it.** It meets every box within the distance
and none beyond the diagonal of a square over it, covers the box it was grown from, and neither
meets nor comes near anything where one of the two is null. -/
theorem expandByDistance_filters (haw : a.bounds.WellFormed) (hbw : b.WellFormed)
    (ha : a.bounds.Exact) (hb : b.Exact) (hd : 0 ≤ d) :
    (a.bounds.distance b ≤ d → (a.expandByDistance d).bounds.intersects b = true) ∧
    ((a.expandByDistance d).bounds.intersects b = true →
      ∃ r : ℝ, a.bounds.distance b = r ∧ 0 ≤ r ∧ r ^ 2 ≤ 2 * d ^ 2) ∧
    (a.isNull = false → (a.expandByDistance d).bounds.covers a.bounds = true) ∧
    (a.isNull = true ∨ b.isNull = true →
      (a.expandByDistance d).bounds.intersects b = false ∧ ¬a.bounds.distance b ≤ d) := by
  refine ⟨fun h ↦ ?_, fun h ↦ ?_, fun han ↦ covers_expandByDistance haw ha han hd,
    fun h ↦ not_reaches_of_isNull h d⟩
  · have hne := not_or.mp fun hnull ↦ (not_reaches_of_isNull hnull d).2 h
    rw [Bool.not_eq_true, Bool.not_eq_true] at hne
    exact reaches_of_distance_le haw ha hne.1 hd hbw hb hne.2 h
  · have hne := not_or.mp fun hnull ↦
      Bool.false_ne_true ((not_reaches_of_isNull hnull d).1.symm.trans h)
    rw [Bool.not_eq_true, Bool.not_eq_true] at hne
    exact sq_distance_le_of_reaches haw ha hne.1 hd hbw hb hne.2 h

/-- A point grown by one touches the corner of a square, which is as far as the filter lets
through. -/
theorem expandByDistance_filters_corner :
    ∃ (a : Envelope EReal) (b : Bounds EReal), a = ofPoint ((0 : ℝ) : EReal) ((0 : ℝ) : EReal) ∧
      b = ⟨false, (1 : ℝ), (2 : ℝ), (1 : ℝ), (2 : ℝ)⟩ ∧
      (a.bounds.WellFormed ∧ b.WellFormed ∧ a.bounds.Exact ∧ b.Exact) ∧
      (a.expandByDistance (1 : ℝ)).bounds.covers a.bounds = true ∧
      (a.expandByDistance (1 : ℝ)).bounds.intersects b = true ∧
      ∃ r : ℝ, a.bounds.distance b = r ∧ r ^ 2 = 2 * 1 ^ 2 := by
  obtain ⟨a, ha⟩ : ∃ a : Envelope EReal, a = ofPoint ((0 : ℝ) : EReal) ((0 : ℝ) : EReal) :=
    ⟨_, rfl⟩
  obtain ⟨b, hb⟩ : ∃ b : Bounds EReal, b = ⟨false, (1 : ℝ), (2 : ℝ), (1 : ℝ), (2 : ℝ)⟩ :=
    ⟨_, rfl⟩
  have han : a.isNull = false := by
    rw [ha]
    exact isNull_ofPoint _ _
  have haw : a.bounds.WellFormed := by
    rw [ha]
    exact Or.inr (inOrder_ofPoint le_rfl le_rfl)
  have hbw : b.WellFormed := by
    rw [hb]
    refine Or.inr ⟨EReal.coe_le_coe_iff.mpr ?_, EReal.coe_le_coe_iff.mpr ?_⟩ <;> norm_num
  have hae : a.bounds.Exact := fun _ ↦ ⟨0, 0, 0, 0, by rw [ha]; rfl⟩
  have hbe : b.Exact := fun _ ↦ ⟨1, 2, 1, 2, by rw [hb]⟩
  obtain ⟨-, hdiagonal, hcovers, -⟩ :=
    expandByDistance_filters haw hbw hae hbe (d := 1) zero_le_one
  -- the gap along either axis is one
  have hgap : Bounds.gap ((0 : ℝ) : EReal) (0 : ℝ) (1 : ℝ) (2 : ℝ) = (1 : ℝ) := by
    rw [Bounds.gap, if_pos (EReal.coe_lt_coe_iff.mpr zero_lt_one), ← EReal.coe_sub, sub_zero]
  have hgapX : a.bounds.gapX b = (1 : ℝ) := by rw [ha, hb]; exact hgap
  have hgapY : a.bounds.gapY b = (1 : ℝ) := by rw [ha, hb]; exact hgap
  have hbn : b.isNull = false := by rw [hb]
  have hmeets : (a.expandByDistance (1 : ℝ)).bounds.intersects b = true := by
    rw [reaches_iff_gaps haw hae han zero_le_one hbw hbe hbn, hgapX, hgapY]
    exact ⟨le_rfl, le_rfl⟩
  obtain ⟨r, hr, -, hle⟩ := hdiagonal hmeets
  refine ⟨a, b, ha, hb, ⟨haw, hbw, hae, hbe⟩, hcovers han, hmeets, r, hr, le_antisymm hle ?_⟩
  rw [Bounds.distance_eq_sqrt han hbn hgapX hgapY zero_le_one zero_le_one,
    EReal.coe_eq_coe_iff] at hr
  rw [← hr, Real.sq_sqrt (by positivity)]
  norm_num

end Envelope

end Geospatial
