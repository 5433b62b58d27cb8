import Geospatial.Proofs.Ordinate.Exact
import Geospatial.Proofs.Bounds.Distance

/-!
# Distance in exact arithmetic

Distance is computed from bounds, without looking at a point. In exact arithmetic the distance of
two boxes is nevertheless the least distance between a point of the one and a point of the other:

* `exists_distance_le` — no two points are closer than the boxes;
* `exists_nearest` — and some two points are as close.

**Both come from one axis.** The gap between two spans is the least difference between their values,
never more than any (`exists_gap_le`) and equal to one (`exists_gap_eq`). The axes do not know of
each other, so the values that attain the gap along x and those that attain it along y are the
coordinates of two points, and the distance is the root over the squares of the gaps in all cases,
those answered without a root included (`distance_eq_sqrt`).

**Covering more brings no box farther away,** because the nearest points are still covered. Moving
both boxes alike moves no gap (`gap_add`).
-/

namespace Geospatial

namespace Bounds

/-- All four bounds are real numbers. -/
def OfReals (a : Bounds EReal) : Prop :=
  ∃ minX maxX minY maxY : ℝ, a = ⟨a.isNull, minX, maxX, minY, maxY⟩

/-! ### One axis -/

section Axis

variable {lo hi minA maxA minB maxB : EReal} {p q : ℝ}

/-- What lies between two values that are kept apart is no more than their difference. -/
theorem exists_sub_le (hp : p ≤ hi) (h : hi < lo) (hq : lo ≤ q) :
    ∃ g : ℝ, lo - hi = g ∧ 0 ≤ g ∧ g ≤ |p - q| := by
  -- each of the two ends has a real number on either side
  lift hi to ℝ using ⟨(h.trans_le le_top).ne, ((EReal.bot_lt_coe p).trans_le hp).ne'⟩
  lift lo to ℝ using ⟨(hq.trans_lt (EReal.coe_lt_top q)).ne, (bot_le.trans_lt h).ne'⟩
  rw [EReal.coe_le_coe_iff] at hp hq
  rw [EReal.coe_lt_coe_iff] at h
  refine ⟨lo - hi, (EReal.coe_sub lo hi).symm, sub_nonneg.mpr h.le, ?_⟩
  rw [abs_sub_comm]
  exact (sub_le_sub hq hp).trans (le_abs_self _)

/-- **No two values are closer than their spans.** -/
theorem exists_gap_le (hp : minA ≤ p ∧ p ≤ maxA) (hq : minB ≤ q ∧ q ≤ maxB) :
    ∃ g : ℝ, gap minA maxA minB maxB = g ∧ 0 ≤ g ∧ g ≤ |p - q| := by
  rw [gap]
  split
  next h => exact exists_sub_le hp.2 h hq.1
  next =>
    split
    next h =>
      rw [abs_sub_comm]
      exact exists_sub_le hq.2 h hp.1
    next => exact ⟨0, Ordinate.exact_zero.trans EReal.coe_zero.symm, le_rfl, abs_nonneg _⟩

end Axis

section RealAxis

variable {minA maxA minB maxB : ℝ}

/-- **Some two values are as close as their spans.** They are the ends that face each other, or one
value of both. -/
theorem exists_gap_eq (hA : minA ≤ maxA) (hB : minB ≤ maxB) :
    ∃ p q : ℝ, (minA ≤ p ∧ p ≤ maxA) ∧ (minB ≤ q ∧ q ≤ maxB) ∧
      gap (minA : EReal) maxA minB maxB = (|p - q| : ℝ) := by
  rw [gap]
  split
  next h =>
    refine ⟨maxA, minB, ⟨hA, le_rfl⟩, ⟨le_rfl, hB⟩, ?_⟩
    rw [abs_sub_comm, abs_of_pos (sub_pos.mpr (EReal.coe_lt_coe_iff.mp h)), EReal.coe_sub]
  next h =>
    split
    next h' =>
      refine ⟨minA, maxB, ⟨le_rfl, hA⟩, ⟨hB, le_rfl⟩, ?_⟩
      rw [abs_of_pos (sub_pos.mpr (EReal.coe_lt_coe_iff.mp h')), EReal.coe_sub]
    next h' =>
      rw [EReal.coe_lt_coe_iff, not_lt] at h h'
      refine ⟨max minA minB, max minA minB, ⟨le_max_left _ _, max_le hA h⟩,
        ⟨le_max_right _ _, max_le h' hB⟩, ?_⟩
      rw [sub_self, abs_zero, Ordinate.exact_zero, EReal.coe_zero]

/-- Spans that move alike keep their gap. -/
theorem gap_add (t : ℝ) :
    gap ((minA : EReal) + t) (maxA + t) (minB + t) (maxB + t) =
      gap (minA : EReal) maxA minB maxB := by
  simp only [gap, ← EReal.coe_add, ← EReal.coe_sub, EReal.coe_lt_coe_iff, add_lt_add_iff_right,
    add_sub_add_right_eq_sub]

end RealAxis

/-! ### Both axes -/

variable {a b c : Bounds EReal} {p q : ℝ × ℝ}

/-- The three ways to answer agree: where a gap is zero, the other one is the root of its square. -/
theorem distance_eq_sqrt {gx gy : ℝ} (ha : a.isNull = false) (hb : b.isNull = false)
    (hx : a.gapX b = gx) (hy : a.gapY b = gy) (hgx : 0 ≤ gx) (hgy : 0 ≤ gy) :
    a.distance b = (√(gx ^ 2 + gy ^ 2) : ℝ) := by
  have hzero (g : ℝ) : ((g : EReal) == 0.0) = true ↔ g = 0 := by
    rw [beq_iff_eq, Ordinate.exact_zero, EReal.coe_eq_zero]
  cases h : a.intersects b with
  | true =>
    obtain ⟨hx0, hy0⟩ := (intersects_iff_beq_gap_zero ha hb).mp h
    rw [hx, hzero] at hx0
    rw [hy, hzero] at hy0
    rw [distance_of_intersects h, hx0, hy0, zero_pow two_ne_zero, zero_add, Real.sqrt_zero,
      Ordinate.exact_zero, EReal.coe_zero]
  | false =>
    rw [distance_of_apart ha hb h, hx, hy]
    simp only [hzero]
    split
    next hx0 => rw [hx0, zero_pow two_ne_zero, zero_add, Real.sqrt_sq hgy]
    next =>
      split
      next hy0 => rw [hy0, zero_pow two_ne_zero, add_zero, Real.sqrt_sq hgx]
      next => exact Ordinate.hypotenuse_coe gx gy

/-- **No two points are closer than the boxes that cover them.** -/
theorem exists_distance_le (hp : ((p.1 : EReal), (p.2 : EReal)) ∈ a.region)
    (hq : ((q.1 : EReal), (q.2 : EReal)) ∈ b.region) :
    ∃ d : ℝ, a.distance b = d ∧ 0 ≤ d ∧ d ^ 2 ≤ (p.1 - q.1) ^ 2 + (p.2 - q.2) ^ 2 := by
  obtain ⟨ha, hpx, hpy⟩ := mem_region_iff.mp hp
  obtain ⟨hb, hqx, hqy⟩ := mem_region_iff.mp hq
  obtain ⟨gx, hx, hgx, hlex⟩ := exists_gap_le hpx hqx
  obtain ⟨gy, hy, hgy, hley⟩ := exists_gap_le hpy hqy
  refine ⟨_, distance_eq_sqrt ha hb hx hy hgx hgy, Real.sqrt_nonneg _, ?_⟩
  rw [Real.sq_sqrt (by positivity), ← sq_abs (p.1 - q.1), ← sq_abs (p.2 - q.2)]
  gcongr

/-- What is left of a box once its bounds are known to be real: four reals in order. -/
theorem OfReals.exists_eq (h : a.OfReals) (hnull : a.isNull = false) (hwell : a.WellFormed) :
    ∃ minX maxX minY maxY : ℝ, a = ⟨false, minX, maxX, minY, maxY⟩ ∧
      minX ≤ maxX ∧ minY ≤ maxY := by
  obtain ⟨minX, maxX, minY, maxY, heq⟩ := h
  have horder := hwell.inOrder hnull
  rw [heq] at horder
  rw [hnull] at heq
  exact ⟨minX, maxX, minY, maxY, heq, EReal.coe_le_coe_iff.mp horder.x,
    EReal.coe_le_coe_iff.mp horder.y⟩

section

variable (ha : a.OfReals) (han : a.isNull = false) (haw : a.WellFormed) (hb : b.OfReals)
  (hbn : b.isNull = false) (hbw : b.WellFormed)

include ha han haw hb hbn hbw

/-- **Some two points are as close as the boxes that cover them.** -/
theorem exists_nearest :
    ∃ p q : ℝ × ℝ, ((p.1 : EReal), (p.2 : EReal)) ∈ a.region ∧
      ((q.1 : EReal), (q.2 : EReal)) ∈ b.region ∧
      a.distance b = (√((p.1 - q.1) ^ 2 + (p.2 - q.2) ^ 2) : ℝ) := by
  obtain ⟨aMinX, aMaxX, aMinY, aMaxY, rfl, haX, haY⟩ := ha.exists_eq han haw
  obtain ⟨bMinX, bMaxX, bMinY, bMaxY, rfl, hbX, hbY⟩ := hb.exists_eq hbn hbw
  obtain ⟨px, qx, hpx, hqx, hx⟩ := exists_gap_eq haX hbX
  obtain ⟨py, qy, hpy, hqy, hy⟩ := exists_gap_eq haY hbY
  refine ⟨(px, py), (qx, qy), mem_region_iff.mpr ⟨rfl, ?_⟩, mem_region_iff.mpr ⟨rfl, ?_⟩, ?_⟩
  · simp only [EReal.coe_le_coe_iff]
    exact ⟨hpx, hpy⟩
  · simp only [EReal.coe_le_coe_iff]
    exact ⟨hqx, hqy⟩
  · rw [← sq_abs (px - qx), ← sq_abs (py - qy)]
    exact distance_eq_sqrt rfl rfl hx hy (abs_nonneg _) (abs_nonneg _)

/-- A box that covers more is no farther. -/
theorem distance_le_of_covers (h : c.covers b = true) : a.distance c ≤ a.distance b := by
  obtain ⟨p, q, hp, hq, hdistance⟩ := exists_nearest ha han haw hb hbn hbw
  obtain ⟨d, hd, -, hle⟩ := exists_distance_le hp (region_subset_of_covers h hq)
  rw [hd, hdistance]
  exact EReal.coe_le_coe_iff.mpr (Real.le_sqrt_of_sq_le hle)

end

end Bounds

/-! ### Moving -/

namespace Envelope

variable {e f : Envelope EReal}

/-- A box in order is still in order once it has moved. -/
theorem bounds_translate (hnull : e.isNull = false) (hwell : e.bounds.WellFormed) (dx dy : EReal) :
    (e.translate dx dy).bounds =
      ⟨false, e.minX + dx, e.maxX + dx, e.minY + dy, e.maxY + dy⟩ := by
  have horder := hwell.inOrder hnull
  have hx : e.minX + dx ≤ e.maxX + dx := add_le_add horder.x le_rfl
  have hy : e.minY + dy ≤ e.maxY + dy := add_le_add horder.y le_rfl
  rw [translate, hnull, if_neg Bool.false_ne_true, spanning, Ordinate.inOrder_of_le hx,
    Ordinate.inOrder_of_le hy, bounds, isNull, decide_eq_false (not_lt.mpr hx)]

/-- **Boxes that move alike stay as far apart.** -/
theorem distance_translate (he : e.bounds.OfReals) (hen : e.isNull = false)
    (hew : e.bounds.WellFormed) (hf : f.bounds.OfReals) (hfn : f.isNull = false)
    (hfw : f.bounds.WellFormed) (dx dy : ℝ) :
    (e.translate dx dy).bounds.distance (f.translate dx dy).bounds =
      e.bounds.distance f.bounds := by
  rw [bounds_translate hen hew, bounds_translate hfn hfw]
  obtain ⟨eMinX, eMaxX, eMinY, eMaxY⟩ := e
  obtain ⟨fMinX, fMaxX, fMinY, fMaxY⟩ := f
  obtain ⟨_, _, _, _, hreal⟩ := he
  cases hreal
  obtain ⟨_, _, _, _, hreal⟩ := hf
  cases hreal
  exact Bounds.distance_eq_of_gaps rfl rfl hen hfn (Bounds.gap_add dx) (Bounds.gap_add dy)

end Envelope

namespace Bounds

/-- **Distance is the least distance of two points.** It does not grow when a box covers more, and
does not change when both boxes move alike. -/
theorem distance_least_between_points {a b : Bounds EReal} (haw : a.WellFormed)
    (hbw : b.WellFormed) (han : a.isNull = false) (hbn : b.isNull = false) (ha : a.OfReals)
    (hb : b.OfReals) :
    ∃ d : ℝ, a.distance b = d ∧ 0 ≤ d ∧
      (∀ p q : ℝ × ℝ, a.coversPoint p.1 p.2 = true → b.coversPoint q.1 q.2 = true →
        d ^ 2 ≤ (p.1 - q.1) ^ 2 + (p.2 - q.2) ^ 2) ∧
      (∃ p q : ℝ × ℝ, a.coversPoint p.1 p.2 = true ∧ b.coversPoint q.1 q.2 = true ∧
        d ^ 2 = (p.1 - q.1) ^ 2 + (p.2 - q.2) ^ 2) ∧
      (∀ c : Bounds EReal, c.covers b = true → a.distance c ≤ a.distance b) ∧
      ∀ e f : Envelope EReal, e.bounds = a → f.bounds = b → ∀ dx dy : ℝ,
        (e.translate dx dy).bounds.distance (f.translate dx dy).bounds = a.distance b := by
  obtain ⟨p, q, hp, hq, hdistance⟩ := exists_nearest ha han haw hb hbn hbw
  refine ⟨_, hdistance, Real.sqrt_nonneg _, ?_, ⟨p, q, hp, hq, Real.sq_sqrt (by positivity)⟩,
    fun _ ↦ distance_le_of_covers ha han haw hb hbn hbw, ?_⟩
  · intro p' q' hp' hq'
    obtain ⟨d, hd, -, hle⟩ := exists_distance_le hp' hq'
    rwa [← EReal.coe_eq_coe_iff.mp (hdistance.symm.trans hd)] at hle
  · rintro e f rfl rfl dx dy
    exact Envelope.distance_translate ha han haw hb hbn hbw dx dy

/-- Two unit squares that are three apart along x and four along y. -/
theorem distance_least_between_points_of_squares :
    ∃ a b : Bounds EReal,
      a = ⟨false, (0 : ℝ), (1 : ℝ), (0 : ℝ), (1 : ℝ)⟩ ∧
        b = ⟨false, (4 : ℝ), (5 : ℝ), (5 : ℝ), (6 : ℝ)⟩ ∧
        (a.WellFormed ∧ b.WellFormed) ∧ (a.OfReals ∧ b.OfReals) ∧
        a.distance b = (5 : ℝ) := by
  have haw : (⟨false, (0 : ℝ), (1 : ℝ), (0 : ℝ), (1 : ℝ)⟩ : Bounds EReal).WellFormed := by
    refine Or.inr ⟨EReal.coe_le_coe_iff.mpr ?_, EReal.coe_le_coe_iff.mpr ?_⟩ <;> norm_num
  have hbw : (⟨false, (4 : ℝ), (5 : ℝ), (5 : ℝ), (6 : ℝ)⟩ : Bounds EReal).WellFormed := by
    refine Or.inr ⟨EReal.coe_le_coe_iff.mpr ?_, EReal.coe_le_coe_iff.mpr ?_⟩ <;> norm_num
  obtain ⟨d, hd, hnonneg, hleast, ⟨p, q, hp, hq, heq⟩, -⟩ :=
    distance_least_between_points haw hbw rfl rfl ⟨_, _, _, _, rfl⟩ ⟨_, _, _, _, rfl⟩
  refine ⟨_, _, rfl, rfl, ⟨haw, hbw⟩, ⟨⟨_, _, _, _, rfl⟩, ⟨_, _, _, _, rfl⟩⟩, ?_⟩
  -- the corners that face each other bound the distance from above, every other pair from below
  have hupper : d ^ 2 ≤ (1 - 4) ^ 2 + (1 - 5) ^ 2 := by
    refine hleast (1, 1) (4, 5) (coversPoint_iff.mpr ⟨rfl, ?_⟩) (coversPoint_iff.mpr ⟨rfl, ?_⟩) <;>
      simp only [EReal.coe_le_coe_iff] <;> norm_num
  obtain ⟨-, hpx, hpy⟩ := coversPoint_iff.mp hp
  obtain ⟨-, hqx, hqy⟩ := coversPoint_iff.mp hq
  simp only [EReal.coe_le_coe_iff] at hpx hpy hqx hqy
  have hlower : (1 - 4) ^ 2 + (1 - 5) ^ 2 ≤ d ^ 2 := by
    rw [heq]
    nlinarith
  have hfive : d = 5 := by
    nlinarith
  rw [hd, hfive]

end Bounds

end Geospatial
