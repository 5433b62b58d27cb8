import Geospatial.Proofs.Bounds.Region

/-!
# The box that two boxes share

The region of an intersection is the intersection of the regions (`region_intersection`), whether or
not the boxes meet. That boxes with one region are equal then makes intersection commutative,
associative and idempotent, as it is of sets.

**Spanning the shared bounds hides nothing.** The bounds of the shared box are put in order on the
way, which would turn an inverted box into a proper one; of boxes that intersect the shared bounds
stand in order already (`intersects_iff_inOrder`), so all that can change is the sign of a zero.
-/

namespace Geospatial.Bounds

section

variable {α : Type} [Ordinate α] {a b : Bounds α}

/-- Boxes that meet share the box between the inner bounds. -/
theorem intersection_of_intersects (h : a.intersects b = true) :
    a.intersection b = .spanning (overlap a b).minX (overlap a b).maxX (overlap a b).minY
      (overlap a b).maxY := by
  obtain ⟨ha, hb⟩ := isNull_of_intersects h
  rw [intersection, ha, hb, h]
  rfl

theorem intersection_of_disjoint (h : a.intersects b = false) : a.intersection b = .null := by
  rw [intersection, h, Bool.not_false, Bool.or_true]
  rfl

variable [LawfulOrdinate α] {x1 x2 y1 y2 : α}

/-- Bounds that are given in order span a box in order. -/
theorem inOrder_spanning (hx : x1 ≤ x2) (hy : y1 ≤ y2) :
    (Envelope.spanning x1 x2 y1 y2).bounds.InOrder :=
  Envelope.inOrder_spanning (Ordinate.isNumber_left hx) (Ordinate.isNumber_right hx)
    (Ordinate.isNumber_left hy) (Ordinate.isNumber_right hy)

/-- With its ends in order, a spanned box has the points between them. -/
theorem mem_region_spanning (hx : x1 ≤ x2) (hy : y1 ≤ y2) {x y : α} :
    (x, y) ∈ (Envelope.spanning x1 x2 y1 y2).bounds.region ↔
      (x1 ≤ x ∧ x ≤ x2) ∧ y1 ≤ y ∧ y ≤ y2 := by
  have hnull : (Envelope.spanning x1 x2 y1 y2).isNull = false :=
    Envelope.isNull_of_inOrder (inOrder_spanning hx hy)
  rw [mem_region_iff, Envelope.bounds_isNull, hnull, eq_self, true_and]
  exact and_congr (and_congr (Ordinate.inOrder_fst_le_iff hx) (Ordinate.le_inOrder_snd_iff hx))
    (and_congr (Ordinate.inOrder_fst_le_iff hy) (Ordinate.le_inOrder_snd_iff hy))

end

variable {a b : Bounds Float}

/-- Of boxes that intersect the shared bounds are in order; of others the shared box is null. -/
theorem wellFormed_intersection (ha : a.WellFormed) (hb : b.WellFormed) :
    (a.intersection b).bounds.WellFormed := by
  cases h : a.intersects b with
  | false =>
    rw [intersection_of_disjoint h]
    exact Or.inl Envelope.isNull_null
  | true =>
    have hover := inOrder_overlap ha hb h
    rw [intersection_of_intersects h]
    exact Or.inr (inOrder_spanning hover.x hover.y)

/-- **The region of an intersection is the intersection of the regions.** -/
theorem region_intersection (ha : a.WellFormed) (hb : b.WellFormed) :
    (a.intersection b).bounds.region = a.region ∩ b.region := by
  cases h : a.intersects b with
  | false =>
    have hempty : a.region ∩ b.region = ∅ := by
      rw [← Set.not_nonempty_iff_eq_empty, ← intersects_iff_nonempty ha hb, h]
      exact Bool.false_ne_true
    rw [intersection_of_disjoint h, hempty]
    exact region_of_isNull Envelope.isNull_null
  | true =>
    have hover := inOrder_overlap ha hb h
    rw [intersection_of_intersects h]
    ext ⟨x, y⟩
    -- a point is in both boxes where it lies between the inner bounds
    rw [mem_inter_region_of_intersects ha hb h]
    exact mem_region_spanning hover.x hover.y

/-- The intersection is null exactly where the boxes do not meet. -/
theorem isNull_intersection_iff (ha : a.WellFormed) (hb : b.WellFormed) :
    (a.intersection b).isNull = false ↔ a.intersects b = true := by
  rw [← Envelope.bounds_isNull, ← nonempty_region_iff (wellFormed_intersection ha hb),
    region_intersection ha hb, intersects_iff_nonempty ha hb]

/-- Intersections of the same sets are equal boxes. -/
theorem equals_intersection_iff {o : Bounds Float} (ha : a.WellFormed) (hb : b.WellFormed)
    (ho : o.WellFormed) :
    (a.intersection b).bounds.equals o = true ↔ a.region ∩ b.region = o.region := by
  rw [equals_iff_region_eq (wellFormed_intersection ha hb) ho, region_intersection ha hb]

/-- **Intersecting and intersection denote the intersection of sets.** -/
theorem intersection_denotes_inter (ha : a.WellFormed) (hb : b.WellFormed) :
    (a.intersects b = true ↔ ∃ x y, a.coversPoint x y = true ∧ b.coversPoint x y = true) ∧
      (a.intersects b = true ↔ (a.intersection b).isNull = false) ∧
      (a.intersects b = true ↔ a.disjoint b = false) ∧
      (∀ x y, (a.intersection b).bounds.coversPoint x y = true ↔
        a.coversPoint x y = true ∧ b.coversPoint x y = true) ∧
      (∀ c : Bounds Float, c.WellFormed →
        ((a.intersection b).bounds.covers c = true ↔ a.covers c = true ∧ b.covers c = true)) ∧
      (a.intersection b).bounds.equals (b.intersection a).bounds = true ∧
      (∀ c : Bounds Float, c.WellFormed →
        ((a.intersection b).bounds.intersection c).bounds.equals
          (a.intersection (b.intersection c).bounds).bounds = true) ∧
      (a.intersection a).bounds.equals a = true ∧
      (a.intersection b).bounds.WellFormed := by
  have hab := wellFormed_intersection ha hb
  refine ⟨(intersects_iff_nonempty ha hb).trans Prod.exists, (isNull_intersection_iff ha hb).symm,
    ?_, ?_, ?_, ?_, ?_, ?_, hab⟩
  · rw [disjoint, Bool.not_eq_false']
  · intro x y
    exact Set.ext_iff.mp (region_intersection ha hb) (x, y)
  · intro c hc
    rw [covers_iff_subset hc, covers_iff_subset hc, covers_iff_subset hc,
      region_intersection ha hb, Set.subset_inter_iff, ← and_and_left]
  -- boxes with the same region are equal, so that these are laws of sets
  · rw [equals_intersection_iff ha hb (wellFormed_intersection hb ha),
      region_intersection hb ha, Set.inter_comm]
  · intro c hc
    have hbc := wellFormed_intersection hb hc
    rw [equals_intersection_iff hab hc (wellFormed_intersection ha hbc),
      region_intersection ha hb, region_intersection ha hbc, region_intersection hb hc,
      Set.inter_assoc]
  · rw [equals_intersection_iff ha ha ha, Set.inter_self]

/-- Two boxes that share a corner and no more, and a third that shares an edge with the second: no
point is in all three, whichever two are intersected first. -/
theorem intersection_denotes_inter_corner :
    ∃ a b c : Bounds Float,
      a = ⟨false, 0.0, 1.0, 0.0, 1.0⟩ ∧ b = ⟨false, 1.0, 2.0, 1.0, Ordinate.infinity⟩ ∧
        c = ⟨false, 2.0, 3.0, 0.0, 4.0⟩ ∧
        a.intersects b = true ∧ (∃ x y, a.coversPoint x y = true ∧ b.coversPoint x y = true) ∧
        (a.intersection b).bounds = ⟨false, 1.0, 1.0, 1.0, 1.0⟩ ∧
        (b.intersection c).bounds = ⟨false, 2.0, 2.0, 1.0, 4.0⟩ ∧
        ((a.intersection b).bounds.intersection c).isNull = true ∧
        ((a.intersection b).bounds.intersection c).bounds.equals
          (a.intersection (b.intersection c).bounds).bounds = true := by
  have ha : (⟨false, 0.0, 1.0, 0.0, 1.0⟩ : Bounds Float).WellFormed :=
    Or.inr ⟨by decide, by decide⟩
  have hb : (⟨false, 1.0, 2.0, 1.0, Ordinate.infinity⟩ : Bounds Float).WellFormed :=
    Or.inr ⟨by decide, by decide⟩
  have hc : (⟨false, 2.0, 3.0, 0.0, 4.0⟩ : Bounds Float).WellFormed :=
    Or.inr ⟨by decide, by decide⟩
  obtain ⟨hpoint, -, -, -, -, -, hassoc, -⟩ := intersection_denotes_inter ha hb
  have hmeet : (⟨false, 0.0, 1.0, 0.0, 1.0⟩ : Bounds Float).intersects
      ⟨false, 1.0, 2.0, 1.0, Ordinate.infinity⟩ = true := by
    decide
  exact ⟨_, _, _, rfl, rfl, rfl, hmeet, hpoint.mp hmeet, rfl, rfl, rfl, hassoc _ hc⟩

end Geospatial.Bounds
