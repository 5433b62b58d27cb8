import Geospatial.Proofs.Binary.Positivity
import Geospatial.Proofs.Bounds.Region

/-!
# Distance and intersection

Two boxes are told apart by their distance: it is zero when they intersect and a positive number
when they do not (`zero_lt_distance`), and it is the same from either of them (`distance_comm`).

**Intersection and distance ask the same questions.** Boxes intersect when no bound keeps them apart
on either axis, and these are the comparisons that open a gap (`beq_gap_zero_iff`). A bound that is
no number answers none of them, so it neither separates two boxes nor widens the gap between them.

**Symmetry needs bounds that are not inverted,** and no more than that. An inverted span can lie
apart from another one on both sides at once, and then the gap depends on which side is asked about
first (`not_apart_both`). Bounds in order are not needed: that the upper one does not lie below the
lower one is enough, whether or not the two compare.
-/

namespace Geospatial.Bounds

variable {α : Type} [Ordinate α] {a b : Bounds α}

/-- The gap between two boxes along x. -/
def gapX (a b : Bounds α) : α :=
  gap a.minX a.maxX b.minX b.maxX

/-- The gap between two boxes along y. -/
def gapY (a b : Bounds α) : α :=
  gap a.minY a.maxY b.minY b.maxY

/-- The box is null, or neither axis has its upper bound below its lower one. -/
def NotInverted (a : Bounds α) : Prop :=
  a.isNull = true ∨ ¬a.maxX < a.minX ∧ ¬a.maxY < a.minY

/-! ### Gaps -/

section Gap

variable {minA maxA minB maxB : α}

theorem gap_eq_zero (h : ¬maxA < minB ∧ ¬maxB < minA) : gap minA maxA minB maxB = 0.0 := by
  rw [gap, if_neg h.1, if_neg h.2]

/-- Of two spans that are not inverted, one at most lies below the other. -/
theorem not_apart_both [LawfulOrdinate α] (hA : ¬maxA < minA) (hB : ¬maxB < minB) :
    ¬(maxA < minB ∧ maxB < minA) := by
  rintro ⟨h, h'⟩
  -- both ends of the first span have been compared, so they are numbers, and stand in order
  have hle : minA ≤ maxA :=
    (Ordinate.not_lt_iff_le (Ordinate.isNumber_left (Ordinate.le_of_lt h))
      (Ordinate.isNumber_right (Ordinate.le_of_lt h'))).mp hA
  exact hB (Ordinate.lt_trans h' (Ordinate.lt_of_le_of_lt hle h))

/-- The gap is the same seen from either span. -/
theorem gap_comm [LawfulOrdinate α] (hA : ¬maxA < minA) (hB : ¬maxB < minB) :
    gap minA maxA minB maxB = gap minB maxB minA maxA := by
  have hnot := not_apart_both hA hB
  rw [gap, gap]
  split
  next h => rw [if_neg fun h' ↦ hnot ⟨h, h'⟩]
  next => rfl

variable [GradualOrdinate α]

/-- Spans that are apart have a positive gap: a difference of distinct values is not zero. -/
theorem zero_lt_gap (h : maxA < minB ∨ maxB < minA) : 0.0 < gap minA maxA minB maxB := by
  rw [gap]
  split
  next hlt => exact GradualOrdinate.zero_lt_sub hlt
  next hnot =>
    have hlt := h.resolve_left hnot
    rw [if_pos hlt]
    exact GradualOrdinate.zero_lt_sub hlt

/-- **A gap is zero only where there is none.** -/
theorem beq_gap_zero_iff :
    (gap minA maxA minB maxB == 0.0) = true ↔ ¬maxA < minB ∧ ¬maxB < minA := by
  constructor
  · intro h
    rw [← not_or]
    intro hapart
    rw [Ordinate.beq_zero_of_pos (zero_lt_gap hapart)] at h
    cases h
  · intro h
    rw [gap_eq_zero h]
    exact Ordinate.beq_zero_self

theorem zero_lt_gap_of_beq (h : ¬(gap minA maxA minB maxB == 0.0) = true) :
    0.0 < gap minA maxA minB maxB := by
  rw [beq_gap_zero_iff, not_and_or, not_not, not_not] at h
  exact zero_lt_gap h

end Gap

/-! ### Distance -/

theorem distance_of_intersects (h : a.intersects b = true) : a.distance b = 0.0 :=
  if_pos h

/-- The distance of boxes apart is the one gap that there is, or the length over both. -/
theorem distance_of_apart (ha : a.isNull = false) (hb : b.isNull = false)
    (h : a.intersects b = false) :
    a.distance b =
      if a.gapX b == 0.0 then a.gapY b
      else if a.gapY b == 0.0 then a.gapX b
      else Ordinate.hypotenuse (a.gapX b) (a.gapY b) := by
  rw [distance, h, ha, hb]
  rfl

/-- Boxes that are not inverted are equally far from each other. -/
theorem distance_comm [LawfulOrdinate α] (ha : a.NotInverted) (hb : b.NotInverted) :
    a.distance b = b.distance a := by
  rcases ha with ha | ⟨hax, hay⟩
  · rw [distance_of_isNull_left ha, distance_of_isNull_right ha]
  · rcases hb with hb | ⟨hbx, hby⟩
    · rw [distance_of_isNull_left hb, distance_of_isNull_right hb]
    · rw [distance, distance, intersects_comm a b, Bool.or_comm, gap_comm hax hbx,
        gap_comm hay hby]

section

variable [GradualOrdinate α]

/-- Boxes intersect where neither axis has a gap. -/
theorem intersects_iff_beq_gap_zero (ha : a.isNull = false) (hb : b.isNull = false) :
    a.intersects b = true ↔ (a.gapX b == 0.0) = true ∧ (a.gapY b == 0.0) = true := by
  rw [intersects_iff, and_iff_right ⟨ha, hb⟩]
  exact and_congr beq_gap_zero_iff.symm beq_gap_zero_iff.symm

/-- **Boxes that do not intersect are a positive distance apart.** -/
theorem zero_lt_distance (h : a.intersects b = false) : 0.0 < a.distance b := by
  cases ha : a.isNull with
  | true =>
    rw [distance_of_isNull_left ha]
    exact GradualOrdinate.zero_lt_infinity
  | false =>
    cases hb : b.isNull with
    | true =>
      rw [distance_of_isNull_right hb]
      exact GradualOrdinate.zero_lt_infinity
    | false =>
      have hgap : ¬((a.gapX b == 0.0) = true ∧ (a.gapY b == 0.0) = true) := by
        rw [← intersects_iff_beq_gap_zero ha hb, h]
        exact Bool.false_ne_true
      rw [distance_of_apart ha hb h]
      split
      next hx => exact zero_lt_gap_of_beq fun hy ↦ hgap ⟨hx, hy⟩
      next hx =>
        split
        next => exact zero_lt_gap_of_beq hx
        next hy =>
          exact GradualOrdinate.zero_lt_hypotenuse (zero_lt_gap_of_beq hx) (zero_lt_gap_of_beq hy)

/-- The distance is told by the gaps: boxes with the same gaps are equally far apart. -/
theorem distance_eq_of_gaps {a' b' : Bounds α} (ha : a.isNull = false) (hb : b.isNull = false)
    (ha' : a'.isNull = false) (hb' : b'.isNull = false) (hx : a.gapX b = a'.gapX b')
    (hy : a.gapY b = a'.gapY b') : a.distance b = a'.distance b' := by
  have hmeet : a.intersects b = a'.intersects b' := by
    rw [Bool.eq_iff_iff, intersects_iff_beq_gap_zero ha hb, intersects_iff_beq_gap_zero ha' hb',
      hx, hy]
  cases h : a.intersects b with
  | true => rw [distance_of_intersects h, distance_of_intersects (hmeet.symm.trans h)]
  | false =>
    rw [distance_of_apart ha hb h, distance_of_apart ha' hb' (hmeet.symm.trans h), hx, hy]

/-- **Only boxes that meet are at no distance.** -/
theorem beq_distance_zero : (a.distance b == 0.0) = a.intersects b := by
  cases h : a.intersects b with
  | true =>
    rw [distance_of_intersects h]
    exact Ordinate.beq_zero_self
  | false => exact Ordinate.beq_zero_of_pos (zero_lt_distance h)

/-- Every distance is a number, the infinite one to a null box included. -/
theorem isNumber_distance : Ordinate.IsNumber (a.distance b) := by
  cases h : a.intersects b with
  | true =>
    rw [distance_of_intersects h]
    exact Ordinate.isNumber_zero
  | false => exact Ordinate.isNumber_right (Ordinate.le_of_lt (zero_lt_distance h))

end

/-- **Distance tells boxes that intersect from all others,** and favours neither of the two. -/
theorem distance_separates {a b : Bounds Float} (ha : a.NotInverted) (hb : b.NotInverted) :
    a.intersects b = b.intersects a ∧
      a.distance b = b.distance a ∧
      (a.distance b).isNaN = false ∧
      (a.distance b == 0.0) = a.intersects b ∧
      (a.isNull = true ∨ b.isNull = true → a.distance b = Ordinate.infinity) := by
  refine ⟨intersects_comm a b, distance_comm ha hb, Binary.isNumber_iff.mp isNumber_distance,
    beq_distance_zero, ?_⟩
  rintro (h | h)
  · exact distance_of_isNull_left h
  · exact distance_of_isNull_right h

/-- A box without a lower bound along x, beside one that reaches to infinity and has no bounds along
y: the only bounds that compare keep them apart. -/
theorem distance_separates_without_numbers :
    ∃ a b : Bounds Float,
      a = ⟨false, Ordinate.undefined, 1.0, 0.0, 3.0⟩ ∧
        b = ⟨false, 3.0, Ordinate.infinity, Ordinate.undefined, Ordinate.undefined⟩ ∧
        (a.NotInverted ∧ b.NotInverted) ∧
        a.distance b = 2.0 ∧ b.distance a = 2.0 ∧ a.intersects b = false := by
  have ha : (⟨false, Ordinate.undefined, 1.0, 0.0, 3.0⟩ : Bounds Float).NotInverted :=
    Or.inr ⟨by decide, by decide⟩
  have hb : (⟨false, 3.0, Ordinate.infinity, Ordinate.undefined, Ordinate.undefined⟩ :
      Bounds Float).NotInverted :=
    Or.inr ⟨by decide, by decide⟩
  have hvalue : (⟨false, Ordinate.undefined, 1.0, 0.0, 3.0⟩ : Bounds Float).distance
      ⟨false, 3.0, Ordinate.infinity, Ordinate.undefined, Ordinate.undefined⟩ = 2.0 := by
    rfl
  obtain ⟨-, hcomm, -, hzero, -⟩ := distance_separates ha hb
  refine ⟨_, _, rfl, rfl, ⟨ha, hb⟩, hvalue, hcomm.symm.trans hvalue, ?_⟩
  rw [← hzero, hvalue]
  decide

end Geospatial.Bounds
