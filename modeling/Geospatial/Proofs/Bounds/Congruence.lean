import Geospatial.Proofs.Binary.Special
import Geospatial.Proofs.Bounds.Digest
import Geospatial.Proofs.Bounds.Distance
import Geospatial.Proofs.Bounds.Intersection

/-!
# Equal boxes answer alike

Equality of boxes is a congruence for everything that can be asked of two boxes (`Bounds.Alike`,
`alike_of_equals`). Boxes that are equal may still differ in the sign of a zero, and no question
brings that sign to light: comparisons do not see it (`Ordinate.lt_congr_left`), a digest takes both
zeros for one, and a gap is measured only between bounds that differ, of which one at most is a zero
(`Binary.sub_congr_left`). What two equal boxes share with a third one is again equal, and may
itself differ in the sign of a zero.

**Nothing is asked of the third box,** which may be inverted or lack bounds, unless a box is to be
shared with it. Then the answer is known from its region, and so both have to be well formed.
-/

namespace Geospatial

/-! ### Comparisons and differences of equal values -/

namespace Ordinate

variable {α : Type} [Ordinate α] [LawfulOrdinate α] {a b c : α}

/-- Comparisons do not tell equal values apart, on either side. -/
theorem le_congr_left (h : (a == b) = true) : a ≤ c ↔ b ≤ c :=
  have hle := LawfulOrdinate.beq_iff_le_ge.mp h
  ⟨le_trans hle.2, le_trans hle.1⟩

theorem le_congr_right (h : (a == b) = true) : c ≤ a ↔ c ≤ b :=
  have hle := LawfulOrdinate.beq_iff_le_ge.mp h
  ⟨fun hca ↦ le_trans hca hle.1, fun hcb ↦ le_trans hcb hle.2⟩

theorem lt_congr_left (h : (a == b) = true) : a < c ↔ b < c := by
  rw [LawfulOrdinate.lt_iff_le_not_ge, LawfulOrdinate.lt_iff_le_not_ge, le_congr_left h,
    le_congr_right h]

theorem lt_congr_right (h : (a == b) = true) : c < a ↔ c < b := by
  rw [LawfulOrdinate.lt_iff_le_not_ge, LawfulOrdinate.lt_iff_le_not_ge, le_congr_left h,
    le_congr_right h]

end Ordinate

namespace Binary

open Float.Model.UnpackedFloat

variable {a b c : Float}

/-- Beside a value that is none, the sign of a zero does not show in a difference. -/
theorem sub_zero_congr (hc : (c == 0.0) = false) (ha : (a == 0.0) = true)
    (hb : (b == 0.0) = true) : c - a = c - b := by
  rw [← Bool.not_eq_true, beq_zero_iff] at hc
  obtain ⟨s, ha⟩ := beq_zero_iff.mp ha
  obtain ⟨s', hb⟩ := beq_zero_iff.mp hb
  show Float.ofModel (.pack (sub .binary64 c.toModel.unpack a.toModel.unpack)) =
    Float.ofModel (.pack (sub .binary64 c.toModel.unpack b.toModel.unpack))
  rw [ha, hb]
  cases hvalue : c.toModel.unpack with
  | zero t => exact absurd ⟨t, hvalue⟩ hc
  | notANumber | infinity | finite => rfl

theorem zero_sub_congr (hc : (c == 0.0) = false) (ha : (a == 0.0) = true)
    (hb : (b == 0.0) = true) : a - c = b - c := by
  rw [← Bool.not_eq_true, beq_zero_iff] at hc
  obtain ⟨s, ha⟩ := beq_zero_iff.mp ha
  obtain ⟨s', hb⟩ := beq_zero_iff.mp hb
  show Float.ofModel (.pack (sub .binary64 a.toModel.unpack c.toModel.unpack)) =
    Float.ofModel (.pack (sub .binary64 b.toModel.unpack c.toModel.unpack))
  rw [ha, hb]
  cases hvalue : c.toModel.unpack with
  | zero t => exact absurd ⟨t, hvalue⟩ hc
  | notANumber | infinity | finite => rfl

/-- What is less or greater than a zero is no zero itself. -/
theorem beq_zero_of_lt (h : (a == 0.0) = true) (hac : a < c ∨ c < a) : (c == 0.0) = false := by
  rw [← Bool.not_eq_true]
  intro hc
  have hbeq : (c == a) = true := Ordinate.beq_trans hc (Ordinate.beq_comm a 0.0 ▸ h)
  rw [Ordinate.lt_congr_right hbeq, Ordinate.lt_congr_left hbeq] at hac
  exact Ordinate.lt_irrefl (or_self_iff.mp hac)

/-- **Equal values have the same difference from a value that is not equal to them.** -/
theorem sub_congr_left (h : (a == b) = true) (hac : a < c ∨ c < a) : a - c = b - c := by
  rcases eq_or_zeros_of_beq h with rfl | ⟨ha, hb⟩
  · rfl
  · exact zero_sub_congr (beq_zero_of_lt ha hac) ha hb

theorem sub_congr_right (h : (a == b) = true) (hac : a < c ∨ c < a) : c - a = c - b := by
  rcases eq_or_zeros_of_beq h with rfl | ⟨ha, hb⟩
  · rfl
  · exact sub_zero_congr (beq_zero_of_lt ha hac) ha hb

end Binary

namespace Bounds

/-! ### Boxes with equal bounds -/

section SameBounds

variable {α : Type} [Ordinate α]

/-- Two boxes that are not null and have equal bounds. -/
structure SameBounds (a b : Bounds α) : Prop where
  left : a.isNull = false
  right : b.isNull = false
  minX : (a.minX == b.minX) = true
  maxX : (a.maxX == b.maxX) = true
  minY : (a.minY == b.minY) = true
  maxY : (a.maxY == b.maxY) = true

variable {a b : Bounds α}

/-- Equal boxes are both null, or neither is and their bounds are equal. -/
theorem equals_iff_sameBounds :
    a.equals b = true ↔ (a.isNull = true ∧ b.isNull = true) ∨ a.SameBounds b := by
  cases ha : a.isNull with
  | true =>
    rw [equals_of_isNull_left ha, eq_self, true_and]
    exact (or_iff_left fun h ↦ Bool.false_ne_true (h.left.symm.trans ha)).symm
  | false =>
    cases hb : b.isNull with
    | true =>
      rw [equals_of_isNull_right hb, ha]
      refine iff_of_false Bool.false_ne_true ?_
      rintro (⟨⟨⟩, -⟩ | h)
      exact Bool.false_ne_true (h.right.symm.trans hb)
    | false =>
      rw [equals_iff_beq ha hb]
      constructor
      · rintro ⟨⟨hmaxX, hmaxY⟩, hminX, hminY⟩
        exact Or.inr ⟨ha, hb, hminX, hmaxX, hminY, hmaxY⟩
      · rintro (⟨⟨⟩, -⟩ | h)
        exact ⟨⟨h.maxX, h.maxY⟩, h.minX, h.minY⟩

variable [LawfulOrdinate α]

theorem SameBounds.symm (h : a.SameBounds b) : b.SameBounds a where
  left := h.right
  right := h.left
  minX := Ordinate.beq_comm a.minX b.minX ▸ h.minX
  maxX := Ordinate.beq_comm a.maxX b.maxX ▸ h.maxX
  minY := Ordinate.beq_comm a.minY b.minY ▸ h.minY
  maxY := Ordinate.beq_comm a.maxY b.maxY ▸ h.maxY

theorem equals_symm (h : a.equals b = true) : b.equals a = true := by
  rw [equals_iff_sameBounds] at *
  exact h.imp And.symm SameBounds.symm

/-- What one box equals, an equal one does. -/
theorem equals_congr_left (h : a.equals b = true) (c : Bounds α) : a.equals c = b.equals c :=
  Bool.eq_iff_iff.mpr ⟨equals_trans (equals_symm h), equals_trans h⟩

theorem equals_congr_right (h : a.equals b = true) (c : Bounds α) : c.equals a = c.equals b :=
  Bool.eq_iff_iff.mpr ⟨fun hca ↦ equals_trans hca h, fun hcb ↦ equals_trans hcb (equals_symm h)⟩

/-! ### Questions that only compare bounds -/

/-- Spans between equal ends meet the same intervals. -/
theorem spanMeets_congr {u v low high low' high' : α} (hlow : (low == low') = true)
    (hhigh : (high == high') = true) : spanMeets u v low high = spanMeets u v low' high' := by
  simp only [spanMeets, Ordinate.lt_congr_left hhigh, Ordinate.lt_congr_right hlow]

namespace SameBounds

/-- Boxes with equal bounds contain the same points, by either test. -/
theorem intersectsPoint (h : a.SameBounds b) (x y : α) :
    a.intersectsPoint x y = b.intersectsPoint x y := by
  simp only [Bounds.intersectsPoint, h.left, h.right, Ordinate.lt_congr_left h.maxX,
    Ordinate.lt_congr_right h.minX, Ordinate.lt_congr_left h.maxY, Ordinate.lt_congr_right h.minY]

theorem coversPoint (h : a.SameBounds b) (x y : α) : a.coversPoint x y = b.coversPoint x y := by
  simp only [Bounds.coversPoint, h.left, h.right, Ordinate.le_congr_left h.minX,
    Ordinate.le_congr_right h.maxX, Ordinate.le_congr_left h.minY, Ordinate.le_congr_right h.maxY]

/-- They meet the same segments, and fail to read the same positions. -/
theorem intersectsSegment (h : a.SameBounds b) (p q : Position α) :
    a.intersectsSegment p q = b.intersectsSegment p q := by
  simp only [Bounds.intersectsSegment, h.left, h.right, spanMeets_congr h.minX h.maxX,
    spanMeets_congr h.minY h.maxY]

variable (c : Bounds α)

theorem intersects (h : a.SameBounds b) : a.intersects c = b.intersects c := by
  simp only [Bounds.intersects, h.left, h.right, Ordinate.lt_congr_left h.maxX,
    Ordinate.lt_congr_right h.minX, Ordinate.lt_congr_left h.maxY, Ordinate.lt_congr_right h.minY]

theorem covers_left (h : a.SameBounds b) : a.covers c = b.covers c := by
  simp only [Bounds.covers, h.left, h.right, Ordinate.le_congr_left h.minX,
    Ordinate.le_congr_right h.maxX, Ordinate.le_congr_left h.minY, Ordinate.le_congr_right h.maxY]

theorem covers_right (h : a.SameBounds b) : c.covers a = c.covers b := by
  simp only [Bounds.covers, h.left, h.right, Ordinate.le_congr_right h.minX,
    Ordinate.le_congr_left h.maxX, Ordinate.le_congr_right h.minY, Ordinate.le_congr_left h.maxY]

theorem order (h : a.SameBounds b) : a.order c = b.order c := by
  simp only [Bounds.order, compareInTurn, h.left, h.right, Ordinate.lt_congr_left h.minX,
    Ordinate.lt_congr_right h.minX, Ordinate.lt_congr_left h.minY, Ordinate.lt_congr_right h.minY,
    Ordinate.lt_congr_left h.maxX, Ordinate.lt_congr_right h.maxX, Ordinate.lt_congr_left h.maxY,
    Ordinate.lt_congr_right h.maxY]

end SameBounds

end SameBounds

/-! ### Distance -/

section Gap

variable {minA maxA minB maxB low high : Float}

/-- A gap is a difference between bounds that are apart, so that no sign of a zero shows. -/
theorem gap_congr_left (hmin : (minA == minB) = true) (hmax : (maxA == maxB) = true) :
    gap minA maxA low high = gap minB maxB low high := by
  simp only [gap, Ordinate.lt_congr_left hmax, Ordinate.lt_congr_right hmin]
  split
  next hlt =>
    exact Binary.sub_congr_right hmax (Or.inl ((Ordinate.lt_congr_left hmax).mpr hlt))
  next =>
    split
    next hlt =>
      exact Binary.sub_congr_left hmin (Or.inr ((Ordinate.lt_congr_right hmin).mpr hlt))
    next => rfl

theorem gap_congr_right (hmin : (minA == minB) = true) (hmax : (maxA == maxB) = true) :
    gap low high minA maxA = gap low high minB maxB := by
  simp only [gap, Ordinate.lt_congr_left hmax, Ordinate.lt_congr_right hmin]
  split
  next hlt =>
    exact Binary.sub_congr_left hmin (Or.inr ((Ordinate.lt_congr_right hmin).mpr hlt))
  next =>
    split
    next hlt =>
      exact Binary.sub_congr_right hmax (Or.inl ((Ordinate.lt_congr_left hmax).mpr hlt))
    next => rfl

end Gap

variable {a b : Bounds Float}

/-- **Distances do not tell boxes with equal bounds apart.** -/
theorem SameBounds.distance_left (h : a.SameBounds b) (c : Bounds Float) :
    a.distance c = b.distance c := by
  simp only [Bounds.distance, h.intersects c, h.left, h.right, gap_congr_left h.minX h.maxX,
    gap_congr_left h.minY h.maxY]

theorem SameBounds.distance_right (h : a.SameBounds b) (c : Bounds Float) :
    c.distance a = c.distance b := by
  simp only [Bounds.distance, intersects_comm c, h.intersects c, h.left, h.right,
    gap_congr_right h.minX h.maxX, gap_congr_right h.minY h.maxY]

/-! ### All questions -/

/-- Two boxes give the same answer to every question but those for a measure or for their bounds;
what they share with a third one is equal. -/
structure Alike (a b : Bounds Float) : Prop where
  isNull : a.isNull = b.isNull
  digest : a.digest = b.digest
  intersectsPoint (x y : Float) : a.intersectsPoint x y = b.intersectsPoint x y
  coversPoint (x y : Float) : a.coversPoint x y = b.coversPoint x y
  containsPoint (x y : Float) : a.containsPoint x y = b.containsPoint x y
  intersectsPosition (p : Position Float) : a.intersectsPosition p = b.intersectsPosition p
  coversPosition (p : Position Float) : a.coversPosition p = b.coversPosition p
  containsPosition (p : Position Float) : a.containsPosition p = b.containsPosition p
  intersectsSegment (p q : Position Float) : a.intersectsSegment p q = b.intersectsSegment p q
  intersects (c : Bounds Float) : a.intersects c = b.intersects c ∧ c.intersects a = c.intersects b
  disjoint (c : Bounds Float) : a.disjoint c = b.disjoint c ∧ c.disjoint a = c.disjoint b
  overlaps (c : Bounds Float) : a.overlaps c = b.overlaps c ∧ c.overlaps a = c.overlaps b
  covers (c : Bounds Float) : a.covers c = b.covers c ∧ c.covers a = c.covers b
  contains (c : Bounds Float) : a.contains c = b.contains c ∧ c.contains a = c.contains b
  containsProperly (c : Bounds Float) :
    a.containsProperly c = b.containsProperly c ∧ c.containsProperly a = c.containsProperly b
  equals (c : Bounds Float) : a.equals c = b.equals c ∧ c.equals a = c.equals b
  distance (c : Bounds Float) : a.distance c = b.distance c ∧ c.distance a = c.distance b
  order (c : Bounds Float) : a.order c = b.order c ∧ c.order a = c.order b
  intersection (c : Bounds Float) (hc : c.WellFormed) :
    (a.intersection c).bounds.equals (b.intersection c).bounds = true ∧
      (c.intersection a).bounds.equals (c.intersection b).bounds = true

/-- What equal boxes share with a third is equal as well, on either side. -/
theorem intersection_congr {c : Bounds Float} (ha : a.WellFormed) (hb : b.WellFormed)
    (hc : c.WellFormed) (h : a.equals b = true) :
    (a.intersection c).bounds.equals (b.intersection c).bounds = true ∧
      (c.intersection a).bounds.equals (c.intersection b).bounds = true := by
  have hregion : a.region = b.region := (equals_iff_region_eq ha hb).mp h
  rw [equals_intersection_iff ha hc (wellFormed_intersection hb hc), region_intersection hb hc,
    equals_intersection_iff hc ha (wellFormed_intersection hc hb), region_intersection hc hb,
    hregion]
  exact ⟨rfl, rfl⟩

/-- **Equal boxes answer alike.** -/
theorem alike_of_equals (ha : a.WellFormed) (hb : b.WellFormed) (h : a.equals b = true) :
    a.Alike b := by
  rcases equals_iff_sameBounds.mp h with ⟨han, hbn⟩ | hsame
  · have hnull := interchangeable_of_isNull han hbn
    exact { hnull with intersection := fun c hc ↦ intersection_congr ha hb hc h }
  -- questions about two boxes are asked with the equal ones on either side
  · have hmeet (c : Bounds Float) :
        a.intersects c = b.intersects c ∧ c.intersects a = c.intersects b := by
      rw [intersects_comm c, intersects_comm c, and_self]
      exact hsame.intersects c
    have hcover (c : Bounds Float) : a.covers c = b.covers c ∧ c.covers a = c.covers b :=
      ⟨hsame.covers_left c, hsame.covers_right c⟩
    have hequal (c : Bounds Float) : a.equals c = b.equals c ∧ c.equals a = c.equals b :=
      ⟨equals_congr_left h c, equals_congr_right h c⟩
    exact
      { isNull := hsame.left.trans hsame.right.symm
        digest := digest_eq_of_equals h
        intersectsPoint := hsame.intersectsPoint
        coversPoint := hsame.coversPoint
        containsPoint := hsame.coversPoint
        intersectsPosition p := by simp only [intersectsPosition, hsame.intersectsPoint]
        coversPosition p := by simp only [coversPosition, hsame.coversPoint]
        containsPosition p := by simp only [containsPosition, coversPosition, hsame.coversPoint]
        intersectsSegment := hsame.intersectsSegment
        intersects := hmeet
        disjoint c := by simp only [disjoint, hmeet, and_self]
        overlaps := hmeet
        covers := hcover
        contains := hcover
        containsProperly c := by simp only [containsProperly, hequal, hcover, and_self]
        equals := hequal
        distance c := ⟨hsame.distance_left c, hsame.distance_right c⟩
        order c := by
          rw [order_swap a c, order_swap b c, hsame.order c]
          exact ⟨rfl, rfl⟩
        intersection := fun c hc ↦ intersection_congr ha hb hc h }

end Bounds

end Geospatial
