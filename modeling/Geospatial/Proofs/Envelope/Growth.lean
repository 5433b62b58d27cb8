import Geospatial.Envelope
import Geospatial.Proofs.Ordinate.Laws

/-!
# Growing an envelope

Growing by a point is growing by the box of that point (`expandToInclude_eq_expandToIncludeBounds`),
so every way of growing is a run of single boxes, and everything about growth is said once, of
`expandToIncludeBounds`.

A box is **in order** when its lower bounds are at most its upper ones, which makes all four of them
numbers; it is **well formed** when it is null or in order. What a box asks of a growing envelope
comes down to `Bounds.Encloses`: `encloses_expandToIncludeBounds` says that a box encloses the grown
envelope exactly when it encloses the envelope before and the box that was added.
-/

namespace Geospatial

variable {α : Type} [Ordinate α]

namespace Bounds

/-- The lower bounds are at most the upper ones. -/
structure InOrder (a : Bounds α) : Prop where
  x : a.minX ≤ a.maxX
  y : a.minY ≤ a.maxY

/-- Null, or in order. The bounds of a null box may be anything. -/
def WellFormed (a : Bounds α) : Prop :=
  a.isNull = true ∨ a.InOrder

/-- Covers the box, if that holds a point at all. -/
def Encloses (c a : Bounds α) : Prop :=
  a.isNull = true ∨ c.covers a = true

/-- Among well-formed boxes the null ones alone are out of order. -/
theorem WellFormed.inOrder {a : Bounds α} (h : a.WellFormed) (ha : a.isNull = false) :
    a.InOrder := by
  rcases h with hnull | h
  · rw [ha] at hnull
    cases hnull
  · exact h

/-- Covering, as the inequalities between bounds that are compared. -/
theorem covers_iff {c a : Bounds α} :
    c.covers a = true ↔ (c.isNull = false ∧ a.isNull = false) ∧
      (c.minX ≤ a.minX ∧ a.maxX ≤ c.maxX) ∧ c.minY ≤ a.minY ∧ a.maxY ≤ c.maxY := by
  simp only [covers, Bool.and_eq_true, Bool.not_eq_true', Bool.or_eq_false_iff,
    decide_eq_true_eq, and_assoc]

theorem coversPoint_iff {c : Bounds α} {x y : α} :
    c.coversPoint x y = true ↔
      c.isNull = false ∧ (c.minX ≤ x ∧ x ≤ c.maxX) ∧ c.minY ≤ y ∧ y ≤ c.maxY := by
  simp only [coversPoint, Bool.and_eq_true, Bool.not_eq_true', decide_eq_true_eq, and_assoc]

/-- Boxes that are not null are equal when their bounds are. -/
theorem equals_iff_beq {a b : Bounds α} (ha : a.isNull = false) (hb : b.isNull = false) :
    a.equals b = true ↔ ((a.maxX == b.maxX) = true ∧ (a.maxY == b.maxY) = true) ∧
      (a.minX == b.minX) = true ∧ (a.minY == b.minY) = true := by
  simp only [equals, ha, hb, Bool.false_eq_true, if_false, Bool.not_false, Bool.true_and,
    Bool.and_eq_true, and_assoc]

theorem encloses_iff_covers {c a : Bounds α} (ha : a.isNull = false) :
    c.Encloses a ↔ c.covers a = true := by
  rw [Encloses, ha]
  exact or_iff_right Bool.false_ne_true

/-- Null boxes are enclosed by everything and covered by nothing. -/
theorem encloses_iff {c a : Bounds α} :
    c.Encloses a ↔ (a.isNull = false → c.covers a = true) := by
  rw [Encloses]
  cases a.isNull <;> simp

/-- A box in order covers itself. -/
theorem covers_self [LawfulOrdinate α] {a : Bounds α} (ha : a.isNull = false) (h : a.InOrder) :
    a.covers a = true :=
  covers_iff.mpr ⟨⟨ha, ha⟩, ⟨Ordinate.isNumber_left h.x, Ordinate.isNumber_right h.x⟩,
    Ordinate.isNumber_left h.y, Ordinate.isNumber_right h.y⟩

/-- **Two boxes that cover each other are equal.** -/
theorem equals_of_covers [LawfulOrdinate α] {a b : Bounds α} (hab : a.covers b = true)
    (hba : b.covers a = true) : a.equals b = true := by
  obtain ⟨⟨ha, hb⟩, hx, hy⟩ := covers_iff.mp hab
  obtain ⟨-, hx', hy'⟩ := covers_iff.mp hba
  have hmaxX := LawfulOrdinate.beq_iff_le_ge.mpr ⟨hx'.2, hx.2⟩
  have hmaxY := LawfulOrdinate.beq_iff_le_ge.mpr ⟨hy'.2, hy.2⟩
  have hminX := LawfulOrdinate.beq_iff_le_ge.mpr ⟨hx.1, hx'.1⟩
  have hminY := LawfulOrdinate.beq_iff_le_ge.mpr ⟨hy.1, hy'.1⟩
  simp only [equals, ha, hb, hmaxX, hmaxY, hminX, hminY]
  rfl

end Bounds

namespace Envelope

variable {e : Envelope α} {o : Bounds α}

theorem isNull_null : (null : Envelope Float).isNull = true := by
  rfl

/-! ### One step of growth -/

/-- A null box is not looked at. -/
theorem expandToIncludeBounds_of_isNull (ho : o.isNull = true) : e.expandToIncludeBounds o = e :=
  if_pos ho

/-- The first box to be added is taken over as it is. -/
theorem expandToIncludeBounds_of_null (ho : o.isNull = false) (he : e.isNull = true) :
    e.expandToIncludeBounds o = ⟨o.minX, o.maxX, o.minY, o.maxY⟩ := by
  rw [expandToIncludeBounds, ho, he]
  rfl

/-- The box between the smaller lower bounds and the greater upper bounds of two others. -/
def hull (a b : Bounds α) : Envelope α :=
  ⟨lesser a.minX b.minX, greater a.maxX b.maxX, lesser a.minY b.minY, greater a.maxY b.maxY⟩

/-- Every later one is joined to what is there, axis by axis. -/
theorem expandToIncludeBounds_eq_hull (ho : o.isNull = false) (he : e.isNull = false) :
    e.expandToIncludeBounds o = hull o e.bounds := by
  rw [expandToIncludeBounds, ho, he]
  rfl

/-- An envelope that is not null grows on each side by itself. -/
theorem expandToInclude_of_not_null (he : e.isNull = false) (x y : α) :
    e.expandToInclude x y =
      ⟨lesser x e.minX, greater x e.maxX, lesser y e.minY, greater y e.maxY⟩ := by
  rw [expandToInclude, he]
  rfl

theorem inOrder_ofPoint {x y : α} (hx : Ordinate.IsNumber x) (hy : Ordinate.IsNumber y) :
    (ofPoint x y).bounds.InOrder :=
  ⟨hx, hy⟩

variable [LawfulOrdinate α]

/-- Bounds in order make an envelope that is not null. -/
theorem isNull_of_inOrder (h : e.bounds.InOrder) : e.isNull = false :=
  decide_eq_false (Ordinate.not_lt_of_le h.x)

/-- No point is null, not even one without numbers. -/
theorem isNull_ofPoint (x y : α) : (ofPoint x y).isNull = false :=
  decide_eq_false Ordinate.lt_irrefl

section

variable {x1 x2 y1 y2 : α} (hx1 : Ordinate.IsNumber x1) (hx2 : Ordinate.IsNumber x2)
  (hy1 : Ordinate.IsNumber y1) (hy2 : Ordinate.IsNumber y2)

include hx1 hx2 hy1 hy2

/-- Numbers span a box in order, in whichever order they are given. -/
theorem inOrder_spanning : (spanning x1 x2 y1 y2).bounds.InOrder :=
  ⟨Ordinate.inOrder_le hx1 hx2, Ordinate.inOrder_le hy1 hy2⟩

theorem isNull_spanning : (spanning x1 x2 y1 y2).isNull = false :=
  isNull_of_inOrder (inOrder_spanning hx1 hx2 hy1 hy2)

end

/-- **A point is a box.** -/
theorem expandToInclude_eq_expandToIncludeBounds (e : Envelope α) (x y : α) :
    e.expandToInclude x y = e.expandToIncludeBounds (ofPoint x y).bounds := by
  have ho : (ofPoint x y).bounds.isNull = false := isNull_ofPoint x y
  rw [expandToInclude, expandToIncludeBounds, ho]
  rfl

/-- Growing by points is growing by the boxes that they are. -/
theorem expandToIncludeAll_eq_foldl (e : Envelope α) (points : List (α × α)) :
    e.expandToIncludeAll points =
      (points.map fun p ↦ (ofPoint p.1 p.2).bounds).foldl expandToIncludeBounds e := by
  rw [expandToIncludeAll, List.foldl_map]
  simp only [expandToInclude_eq_expandToIncludeBounds]

theorem covers_ofPoint (c : Bounds α) (x y : α) :
    c.covers (ofPoint x y).bounds = c.coversPoint x y := by
  have ho : (ofPoint x y).bounds.isNull = false := isNull_ofPoint x y
  rw [Bool.eq_iff_iff, Bounds.covers_iff, Bounds.coversPoint_iff, ho]
  simp [ofPoint]

theorem encloses_ofPoint {c : Bounds α} {x y : α} :
    c.Encloses (ofPoint x y).bounds ↔ c.coversPoint x y = true := by
  rw [Bounds.encloses_iff_covers (isNull_ofPoint x y), covers_ofPoint]

/-! ### What growth keeps -/

/-- The lesser of two lower bounds is below the greater of two upper ones. -/
theorem inOrder_hull {a b : Bounds α} (ha : a.InOrder) (hb : b.InOrder) :
    (hull a b).bounds.InOrder := by
  have hx : lesser a.minX b.minX ≤ a.minX :=
    Ordinate.lesser_le_left (Ordinate.isNumber_left ha.x) (Ordinate.isNumber_left hb.x)
  have hx' : a.maxX ≤ greater a.maxX b.maxX :=
    Ordinate.le_greater_left (Ordinate.isNumber_right ha.x) (Ordinate.isNumber_right hb.x)
  have hy : lesser a.minY b.minY ≤ a.minY :=
    Ordinate.lesser_le_left (Ordinate.isNumber_left ha.y) (Ordinate.isNumber_left hb.y)
  have hy' : a.maxY ≤ greater a.maxY b.maxY :=
    Ordinate.le_greater_left (Ordinate.isNumber_right ha.y) (Ordinate.isNumber_right hb.y)
  exact ⟨Ordinate.le_trans hx (Ordinate.le_trans ha.x hx'),
    Ordinate.le_trans hy (Ordinate.le_trans ha.y hy')⟩

/-- Each of the four sides is bounded on its own. -/
theorem covers_hull_iff {a b c : Bounds α} (ha : a.isNull = false) (hao : a.InOrder)
    (hb : b.isNull = false) (hbo : b.InOrder) :
    c.covers (hull a b).bounds = true ↔ c.covers a = true ∧ c.covers b = true := by
  have hnull : (hull a b).bounds.isNull = false := isNull_of_inOrder (inOrder_hull hao hbo)
  have hminX : c.minX ≤ (hull a b).minX ↔ c.minX ≤ a.minX ∧ c.minX ≤ b.minX :=
    Ordinate.le_lesser_iff (Ordinate.isNumber_left hao.x) (Ordinate.isNumber_left hbo.x)
  have hmaxX : (hull a b).maxX ≤ c.maxX ↔ a.maxX ≤ c.maxX ∧ b.maxX ≤ c.maxX :=
    Ordinate.greater_le_iff (Ordinate.isNumber_right hao.x) (Ordinate.isNumber_right hbo.x)
  have hminY : c.minY ≤ (hull a b).minY ↔ c.minY ≤ a.minY ∧ c.minY ≤ b.minY :=
    Ordinate.le_lesser_iff (Ordinate.isNumber_left hao.y) (Ordinate.isNumber_left hbo.y)
  have hmaxY : (hull a b).maxY ≤ c.maxY ↔ a.maxY ≤ c.maxY ∧ b.maxY ≤ c.maxY :=
    Ordinate.greater_le_iff (Ordinate.isNumber_right hao.y) (Ordinate.isNumber_right hbo.y)
  rw [Bounds.covers_iff, Bounds.covers_iff, Bounds.covers_iff, hnull, ha, hb, bounds_minX,
    bounds_maxX, bounds_minY, bounds_maxY, hminX, hmaxX, hminY, hmaxY]
  -- eight inequalities on each side, sorted by box instead of by axis
  constructor
  · rintro ⟨hc, ⟨⟨h₁, h₁'⟩, h₂, h₂'⟩, ⟨h₃, h₃'⟩, h₄, h₄'⟩
    exact ⟨⟨hc, ⟨h₁, h₂⟩, h₃, h₄⟩, hc, ⟨h₁', h₂'⟩, h₃', h₄'⟩
  · rintro ⟨⟨hc, ⟨h₁, h₂⟩, h₃, h₄⟩, -, ⟨h₁', h₂'⟩, h₃', h₄'⟩
    exact ⟨hc, ⟨⟨h₁, h₁'⟩, h₂, h₂'⟩, ⟨h₃, h₃'⟩, h₄, h₄'⟩

/-- Growing by a box that holds a point gives bounds in order, whatever was there before. -/
theorem inOrder_expandToIncludeBounds (he : e.bounds.WellFormed) (ho : o.isNull = false)
    (hoo : o.InOrder) : (e.expandToIncludeBounds o).bounds.InOrder := by
  cases hnull : e.isNull with
  | true =>
    rw [expandToIncludeBounds_of_null ho hnull]
    exact ⟨hoo.x, hoo.y⟩
  | false =>
    rw [expandToIncludeBounds_eq_hull ho hnull]
    exact inOrder_hull hoo (he.inOrder hnull)

/-- Growing never puts bounds out of order. -/
theorem wellFormed_expandToIncludeBounds (he : e.bounds.WellFormed) (ho : o.WellFormed) :
    (e.expandToIncludeBounds o).bounds.WellFormed := by
  rcases ho with hnull | hoo
  · rwa [expandToIncludeBounds_of_isNull hnull]
  · cases hnull : o.isNull with
    | true => rwa [expandToIncludeBounds_of_isNull hnull]
    | false => exact Or.inr (inOrder_expandToIncludeBounds he hnull hoo)

/-- Only two null boxes make a null one. -/
theorem isNull_expandToIncludeBounds_iff (he : e.bounds.WellFormed) (ho : o.WellFormed) :
    (e.expandToIncludeBounds o).isNull = true ↔ e.isNull = true ∧ o.isNull = true := by
  cases hnull : o.isNull with
  | true => simp [expandToIncludeBounds_of_isNull hnull]
  | false =>
    have hgrown := inOrder_expandToIncludeBounds he hnull (ho.inOrder hnull)
    simp [isNull_of_inOrder hgrown]

/-- **Least of the enclosing boxes.** A box encloses the grown envelope exactly when it encloses
what was there before and what was added. -/
theorem encloses_expandToIncludeBounds (he : e.bounds.WellFormed) (ho : o.WellFormed)
    (c : Bounds α) :
    c.Encloses (e.expandToIncludeBounds o).bounds ↔ c.Encloses e.bounds ∧ c.Encloses o := by
  cases hnull : o.isNull with
  | true =>
    rw [expandToIncludeBounds_of_isNull hnull]
    exact (and_iff_left (Or.inl hnull)).symm
  | false =>
    have hoo := ho.inOrder hnull
    have hgrown := isNull_of_inOrder (inOrder_expandToIncludeBounds he hnull hoo)
    rw [Bounds.encloses_iff_covers hgrown, Bounds.encloses_iff_covers hnull]
    cases hstart : e.isNull with
    | true =>
      -- a null start takes over the box and asks for nothing of its own
      have hnone : c.Encloses e.bounds := Or.inl hstart
      rw [and_iff_right hnone, Bounds.covers_iff, Bounds.covers_iff, bounds_isNull, hgrown, hnull,
        expandToIncludeBounds_of_null hnull hstart]
      rfl
    | false =>
      rw [Bounds.encloses_iff_covers hstart, expandToIncludeBounds_eq_hull hnull hstart,
        covers_hull_iff hnull hoo hstart (he.inOrder hstart), and_comm]

/-- **What is enclosed already changes nothing,** not even the sign of a zero. -/
theorem expandToIncludeBounds_of_encloses (h : e.bounds.Encloses o) :
    e.expandToIncludeBounds o = e := by
  rcases h with hnull | hcovers
  · exact expandToIncludeBounds_of_isNull hnull
  · obtain ⟨⟨he, ho⟩, ⟨hx, hx'⟩, hy, hy'⟩ := Bounds.covers_iff.mp hcovers
    rw [expandToIncludeBounds_eq_hull ho he, hull, Ordinate.lesser_eq_right hx,
      Ordinate.greater_eq_right hx', Ordinate.lesser_eq_right hy, Ordinate.greater_eq_right hy']
    rfl

end Envelope

end Geospatial
