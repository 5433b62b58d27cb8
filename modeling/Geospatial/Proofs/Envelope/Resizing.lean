import Geospatial.Proofs.Bounds.Nearest
import Geospatial.Proofs.Bounds.Intersection
import Geospatial.Proofs.Envelope.NullBounds

/-!
# Resizing and moving in exact arithmetic

Resizing takes four additions and one question: where the grown bounds stand, and whether they are
still in order (`expandBy_eq_orNull`). Moving takes four additions and puts in order what stands in
order already (`translate_eq_shifted`). What the two do to one another, to themselves and to growing
and intersecting is then read off the bounds:

* `isNull_expandBy_iff` — what is left of a box is null when one of its extents, with the amount
  added on both sides, is negative;
* `expandBy_expandBy`, `translate_translate` — amounts add up;
* `translate_expandBy`, `intersection_of_shifted`, `expandToIncludeBounds_of_shifted` — moving first
  and moving last give the same box.

**Shrinking does not add up through null.** Once one axis is inverted the box is null, and growing
again brings nothing back: the amounts add up as long as the box between the two is not null.

**Adding a real number keeps the order of the extended line,** and so it keeps every choice that a
comparison makes (`lesser_add`, `greater_add`). That is all the laws of moving need. They hold of
boxes with infinite bounds as well; only the sizes of a box ask for real bounds.
-/

namespace Geospatial

namespace Ordinate

variable {u v : EReal}

/-- Bounds are moved by a real number, so that infinite ones stay comparable. -/
theorem add_coe_lt_add_coe_iff (t : ℝ) : u + t < v + t ↔ u < v := by
  constructor
  · intro h
    have hsub := EReal.add_lt_add_right_coe h (-t)
    rwa [EReal.coe_neg, ← sub_eq_add_neg, ← sub_eq_add_neg, EReal.add_sub_cancel_right,
      EReal.add_sub_cancel_right] at hsub
  · exact fun h ↦ EReal.add_lt_add_right_coe h t

theorem lesser_add (u v : EReal) (t : ℝ) : lesser (u + t) (v + t) = lesser u v + t := by
  rw [lesser, lesser, apply_ite (· + (t : EReal))]
  exact if_congr (add_coe_lt_add_coe_iff t) rfl rfl

theorem greater_add (u v : EReal) (t : ℝ) : greater (u + t) (v + t) = greater u v + t := by
  rw [greater, greater, apply_ite (· + (t : EReal))]
  exact if_congr (add_coe_lt_add_coe_iff t) rfl rfl

theorem add_sub_coe_comm (u : EReal) (s t : ℝ) : u + s - t = u - t + s := by
  rw [sub_eq_add_neg, sub_eq_add_neg, add_right_comm]

theorem sub_coe_sub_coe (u : EReal) (s t : ℝ) : u - s - t = u - ((s + t : ℝ) : EReal) := by
  rw [sub_eq_add_neg, sub_eq_add_neg, sub_eq_add_neg, add_assoc, ← EReal.coe_neg, ← EReal.coe_neg,
    ← EReal.coe_neg, ← EReal.coe_add, neg_add]

theorem add_coe_add_coe (u : EReal) (s t : ℝ) : u + s + t = u + ((s + t : ℝ) : EReal) := by
  rw [add_assoc, EReal.coe_add]

end Ordinate

/-! ### The bounds after a change -/

namespace Envelope

section

variable {α : Type} [Ordinate α]

/-- The bounds moved outward, whether or not they stay in order. -/
def grown (e : Envelope α) (dx dy : α) : Envelope α :=
  ⟨e.minX - dx, e.maxX + dx, e.minY - dy, e.maxY + dy⟩

/-- The bounds moved alike. -/
def shifted (e : Envelope α) (s t : α) : Envelope α :=
  ⟨e.minX + s, e.maxX + s, e.minY + t, e.maxY + t⟩

/-- An upper bound lies below its lower one, on either axis. -/
def Inverted (e : Envelope α) : Prop :=
  e.maxX < e.minX ∨ e.maxY < e.minY

instance (e : Envelope α) : Decidable e.Inverted :=
  inferInstanceAs (Decidable (e.maxX < e.minX ∨ e.maxY < e.minY))

/-- The envelope as it is, or null where it is inverted. -/
def orNull (e : Envelope α) : Envelope α :=
  if e.Inverted then null else e

variable {e : Envelope α}

/-- Resizing, as moving the bounds outward and then asking whether they are inverted. -/
theorem expandBy_eq_orNull (hnull : e.isNull = false) (dx dy : α) :
    e.expandBy dx dy = (e.grown dx dy).orNull := by
  rw [expandBy, hnull, if_neg Bool.false_ne_true]
  rfl

theorem orNull_of_inverted (h : e.Inverted) : e.orNull = null :=
  if_pos h

theorem orNull_of_not_inverted (h : ¬e.Inverted) : e.orNull = e :=
  if_neg h

end

variable {e : Envelope EReal}

theorem exact_isNull_null : (null : Envelope EReal).isNull = true := by
  refine decide_eq_true ?_
  have hone : (1.0 : EReal) = ((1 : ℝ) : EReal) := by
    have h : (1.0 : ℝ) = 1 := by norm_num
    exact congrArg Real.toEReal h
  change -(1.0 : EReal) < 0.0
  rw [hone, Ordinate.exact_zero, ← EReal.coe_neg, ← EReal.coe_zero, EReal.coe_lt_coe_iff]
  norm_num

/-- Only inverted bounds are given up. -/
theorem isNull_orNull_iff : e.orNull.isNull = true ↔ e.Inverted := by
  by_cases h : e.Inverted
  · rw [orNull_of_inverted h]
    exact iff_of_true exact_isNull_null h
  · rw [orNull_of_not_inverted h]
    exact iff_of_false (fun hnull ↦ h (Or.inl (of_decide_eq_true hnull))) h

/-- What is left by `orNull` is left as it was. -/
theorem orNull_of_not_null (h : e.orNull.isNull = false) : e.orNull = e :=
  orNull_of_not_inverted fun hinv ↦
    Bool.false_ne_true (h.symm.trans (isNull_orNull_iff.mpr hinv))

/-- Over extended reals, not being inverted is being in order. -/
theorem not_inverted_iff : ¬e.Inverted ↔ e.bounds.InOrder := by
  rw [Inverted, not_or, not_lt, not_lt]
  exact ⟨fun h ↦ ⟨h.1, h.2⟩, fun h ↦ ⟨h.x, h.y⟩⟩

/-- **Nothing is put out of order by moving,** so nothing changes places. -/
theorem translate_eq_shifted (hnull : e.isNull = false) (hwell : e.bounds.WellFormed)
    (s t : EReal) : e.translate s t = e.shifted s t := by
  have hbounds := bounds_translate hnull hwell s t
  simp only [bounds, Bounds.mk.injEq] at hbounds
  obtain ⟨-, hminX, hmaxX, hminY, hmaxY⟩ := hbounds
  rw [shifted, ← hminX, ← hmaxX, ← hminY, ← hmaxY]

theorem translate_null (s t : EReal) : (null : Envelope EReal).translate s t = null :=
  translate_of_isNull exact_isNull_null s t

theorem isNull_shifted (e : Envelope EReal) (s t : ℝ) : (e.shifted s t).isNull = e.isNull :=
  decide_eq_decide.mpr (Ordinate.add_coe_lt_add_coe_iff s)

/-- Moving turns no box inside out and puts none right. -/
theorem inverted_shifted_iff (s t : ℝ) : (e.shifted s t).Inverted ↔ e.Inverted :=
  or_congr (Ordinate.add_coe_lt_add_coe_iff s) (Ordinate.add_coe_lt_add_coe_iff t)

/-- Inverted or not, an envelope may be moved before or after it is asked. -/
theorem orNull_shifted (e : Envelope EReal) (s t : ℝ) :
    (e.shifted s t).orNull = e.orNull.translate s t := by
  by_cases h : e.Inverted
  · rw [orNull_of_inverted h, orNull_of_inverted ((inverted_shifted_iff s t).mpr h),
      translate_null]
  · have horder := not_inverted_iff.mp h
    rw [orNull_of_not_inverted h, orNull_of_not_inverted (mt (inverted_shifted_iff s t).mp h),
      translate_eq_shifted (isNull_of_inOrder horder) (Or.inr horder)]

/-! ### Resizing -/

/-- The amounts add up bound by bound, whatever the order of the bounds. -/
theorem grown_grown (e : Envelope EReal) (a b c d : ℝ) :
    (e.grown a b).grown c d = e.grown ((a + c : ℝ) : EReal) ((b + d : ℝ) : EReal) := by
  simp only [grown, Ordinate.sub_coe_sub_coe, Ordinate.add_coe_add_coe]

/-- Resizing that leaves a box has just moved the bounds. -/
theorem expandBy_eq_grown (hnull : e.isNull = false) {dx dy : EReal}
    (h : (e.expandBy dx dy).isNull = false) : e.expandBy dx dy = e.grown dx dy := by
  rw [expandBy_eq_orNull hnull] at h ⊢
  exact orNull_of_not_null h

/-- **Amounts add up as long as the box between them is not null.** -/
theorem expandBy_expandBy (hnull : e.isNull = false) {a b : ℝ}
    (h : (e.expandBy a b).isNull = false) (c d : ℝ) :
    (e.expandBy a b).expandBy c d = e.expandBy ((a + c : ℝ) : EReal) ((b + d : ℝ) : EReal) := by
  rw [expandBy_eq_orNull h, expandBy_eq_grown hnull h, grown_grown, expandBy_eq_orNull hnull]

/-- The bounds pass each other exactly where the extent does not make up for both sides. -/
theorem lt_sub_iff_add_two_mul_neg (lo hi d : ℝ) :
    (hi : EReal) + d < lo - d ↔ (hi : EReal) - lo + 2 * d < 0 := by
  have htwo : (2 : EReal) * d = ((2 * d : ℝ) : EReal) := rfl
  rw [htwo, ← EReal.coe_add, ← EReal.coe_sub, ← EReal.coe_sub, ← EReal.coe_add, ← EReal.coe_zero,
    EReal.coe_lt_coe_iff, EReal.coe_lt_coe_iff, lt_sub_iff_add_lt, ← sub_neg (b := lo)]
  ring_nf

/-- **A box is gone once one of its extents is used up.** -/
theorem isNull_expandBy_iff (hnull : e.isNull = false) (hreal : e.bounds.OfReals) (dx dy : ℝ) :
    (e.expandBy dx dy).isNull = true ↔
      e.bounds.width + 2 * dx < 0 ∨ e.bounds.height + 2 * dy < 0 := by
  rw [expandBy_eq_orNull hnull, isNull_orNull_iff, Bounds.width, Bounds.height, bounds_isNull,
    hnull, if_neg Bool.false_ne_true, if_neg Bool.false_ne_true]
  obtain ⟨minX, maxX, minY, maxY⟩ := e
  obtain ⟨_, _, _, _, heq⟩ := hreal
  cases heq
  exact or_congr (lt_sub_iff_add_two_mul_neg _ _ _) (lt_sub_iff_add_two_mul_neg _ _ _)

/-! ### Moving -/

/-- **Shifts add up,** also where there is nothing to shift. -/
theorem translate_translate (hwell : e.bounds.WellFormed) (s t u v : ℝ) :
    (e.translate s t).translate u v =
      e.translate ((s + u : ℝ) : EReal) ((t + v : ℝ) : EReal) := by
  cases hnull : e.isNull with
  | true => rw [translate_of_isNull hnull, translate_of_isNull hnull, translate_of_isNull hnull]
  | false =>
    have hshifted : (e.shifted s t).bounds.InOrder := by
      rw [← not_inverted_iff, inverted_shifted_iff, not_inverted_iff]
      exact hwell.inOrder hnull
    rw [translate_eq_shifted hnull hwell, translate_eq_shifted hnull hwell,
      translate_eq_shifted (isNull_of_inOrder hshifted) (Or.inr hshifted)]
    simp only [shifted, Ordinate.add_coe_add_coe]

/-- Bound by bound, resizing and moving commute. -/
theorem grown_shifted (e : Envelope EReal) (s t dx dy : ℝ) :
    (e.shifted s t).grown dx dy = (e.grown dx dy).shifted s t := by
  simp only [grown, shifted, Ordinate.add_sub_coe_comm, add_right_comm]

/-- **Resizing does not depend on where a box is.** -/
theorem translate_expandBy (hwell : e.bounds.WellFormed) (s t dx dy : ℝ) :
    (e.translate s t).expandBy dx dy = (e.expandBy dx dy).translate s t := by
  cases hnull : e.isNull with
  | true => rw [translate_of_isNull hnull, expandBy_of_isNull hnull, translate_of_isNull hnull]
  | false =>
    rw [translate_eq_shifted hnull hwell, expandBy_eq_orNull hnull,
      expandBy_eq_orNull ((isNull_shifted e s t).trans hnull), grown_shifted, orNull_shifted]

end Envelope

/-! ### Boxes moved alike -/

namespace Bounds

/-- The second box is the first one shifted: null when that is null, and otherwise with all four
bounds moved alike. -/
structure Shifted (s t : ℝ) (a a' : Bounds EReal) : Prop where
  isNull : a'.isNull = a.isNull
  eq (h : a.isNull = false) : a' = ⟨false, a.minX + s, a.maxX + s, a.minY + t, a.maxY + t⟩

variable {a a' b b' : Bounds EReal} {s t : ℝ}

/-- Moving an envelope shifts what is read off it. -/
theorem shifted_translate {e : Envelope EReal} (hwell : e.bounds.WellFormed) (s t : ℝ) :
    e.bounds.Shifted s t (e.translate s t).bounds := by
  cases hnull : e.isNull with
  | true =>
    rw [Envelope.translate_of_isNull hnull]
    exact ⟨rfl, fun h ↦ absurd (hnull.symm.trans h) Bool.false_ne_true.symm⟩
  | false =>
    rw [Envelope.bounds_translate hnull hwell]
    exact ⟨hnull.symm, fun _ ↦ rfl⟩

/-- Boxes that are moved alike meet exactly where they met before. -/
theorem intersects_of_shifted (ha : a.Shifted s t a') (hb : b.Shifted s t b') :
    a'.intersects b' = a.intersects b := by
  rw [Bool.eq_iff_iff, intersects_iff, intersects_iff, ha.isNull, hb.isNull]
  refine and_congr_right fun ⟨hna, hnb⟩ ↦ ?_
  simp only [ha.eq hna, hb.eq hnb, Ordinate.add_coe_lt_add_coe_iff]

theorem overlap_of_shifted (ha : a.Shifted s t a') (hb : b.Shifted s t b')
    (hna : a.isNull = false) (hnb : b.isNull = false) :
    overlap a' b' = (overlap a b).shifted s t := by
  simp only [ha.eq hna, hb.eq hnb, overlap, Ordinate.greater_add, Ordinate.lesser_add,
    Envelope.shifted]

/-- Exact bounds in order are spanned as they stand. -/
theorem exact_intersection_of_intersects (ha : a.WellFormed) (hb : b.WellFormed)
    (h : a.intersects b = true) : a.intersection b = overlap a b := by
  have horder := inOrder_overlap ha hb h
  have hx : (overlap a b).minX ≤ (overlap a b).maxX := horder.x
  have hy : (overlap a b).minY ≤ (overlap a b).maxY := horder.y
  rw [intersection_of_intersects h, Envelope.spanning, Ordinate.inOrder_of_le hx,
    Ordinate.inOrder_of_le hy]

theorem Shifted.wellFormed (ha : a.Shifted s t a') (hwell : a.WellFormed) : a'.WellFormed := by
  cases hnull : a.isNull with
  | true => exact Or.inl (ha.isNull.trans hnull)
  | false =>
    have horder := hwell.inOrder hnull
    rw [ha.eq hnull]
    exact Or.inr ⟨add_le_add horder.x le_rfl, add_le_add horder.y le_rfl⟩

/-- **Boxes moved alike share what they shared before, moved alike.** -/
theorem intersection_of_shifted (haw : a.WellFormed) (hbw : b.WellFormed)
    (ha : a.Shifted s t a') (hb : b.Shifted s t b') :
    a'.intersection b' = (a.intersection b).translate s t := by
  cases h : a.intersects b with
  | false =>
    rw [intersection_of_disjoint h,
      intersection_of_disjoint ((intersects_of_shifted ha hb).trans h), Envelope.translate_null]
  | true =>
    obtain ⟨hna, hnb⟩ := isNull_of_intersects h
    -- what is shared is in order, so that moving it sorts nothing
    have horder := inOrder_overlap haw hbw h
    rw [exact_intersection_of_intersects haw hbw h,
      exact_intersection_of_intersects (ha.wellFormed haw) (hb.wellFormed hbw)
        ((intersects_of_shifted ha hb).trans h),
      overlap_of_shifted ha hb hna hnb,
      Envelope.translate_eq_shifted (Envelope.isNull_of_inOrder horder) (Or.inr horder)]

end Bounds

namespace Envelope

variable {e : Envelope EReal} {b b' : Bounds EReal} {s t : ℝ}

theorem hull_of_shifted {a a' : Bounds EReal} (ha : a.Shifted s t a') (hb : b.Shifted s t b')
    (hna : a.isNull = false) (hnb : b.isNull = false) :
    hull a' b' = (hull a b).shifted s t := by
  simp only [ha.eq hna, hb.eq hnb, hull, Ordinate.greater_add, Ordinate.lesser_add, shifted]

/-- **Growing by a box that moves along moves along.** -/
theorem expandToIncludeBounds_of_shifted (hwell : e.bounds.WellFormed) (hbw : b.WellFormed)
    (hb : b.Shifted s t b') :
    (e.translate s t).expandToIncludeBounds b' = (e.expandToIncludeBounds b).translate s t := by
  cases hnb : b.isNull with
  | true =>
    rw [expandToIncludeBounds_of_isNull hnb,
      expandToIncludeBounds_of_isNull (hb.isNull.trans hnb)]
  | false =>
    have horder := inOrder_expandToIncludeBounds hwell hnb (hbw.inOrder hnb)
    rw [translate_eq_shifted (isNull_of_inOrder horder) (Or.inr horder)]
    have hnb' := hb.isNull.trans hnb
    have hshifted := Bounds.shifted_translate hwell s t
    -- the hull is taken where there is a box to join to; a null one is replaced by the new bounds
    cases hnull : e.isNull with
    | true =>
      rw [expandToIncludeBounds_of_null hnb hnull,
        expandToIncludeBounds_of_null hnb' (hshifted.isNull.trans hnull), hb.eq hnb]
      rfl
    | false =>
      rw [expandToIncludeBounds_eq_hull hnb hnull,
        expandToIncludeBounds_eq_hull hnb' (hshifted.isNull.trans hnull),
        hull_of_shifted hb hshifted hnb hnull]

theorem shifted_ofPoint (x y : EReal) (s t : ℝ) :
    (ofPoint x y).bounds.Shifted s t (ofPoint (x + s) (y + t)).bounds :=
  ⟨isNull_shifted (ofPoint x y) s t, fun _ ↦ by
    rw [← isNull_ofPoint (x + s) (y + t)]
    rfl⟩

/-- A point moves along as the box of that point does. -/
theorem translate_expandToInclude (hwell : e.bounds.WellFormed) (s t : ℝ) (x y : EReal) :
    (e.translate s t).expandToInclude (x + s) (y + t) = (e.expandToInclude x y).translate s t := by
  have hpoint : (ofPoint x y).bounds.WellFormed := Or.inr (inOrder_ofPoint le_rfl le_rfl)
  rw [expandToInclude_eq_expandToIncludeBounds, expandToInclude_eq_expandToIncludeBounds]
  exact expandToIncludeBounds_of_shifted hwell hpoint (shifted_ofPoint x y s t)

/-- **Resizing is growth and moving is a shift.** What resizing leaves of a box is null exactly when
one of the extents is used up, and covers the grown box otherwise; amounts add up until the box is
null, and shifts add up; moving commutes with resizing, and with intersecting and growing when the
other box moves along. Null boxes are left as they are. -/
theorem resize_grows_and_translate_shifts (hnull : e.isNull = false)
    (hwell : e.bounds.WellFormed) (hreal : e.bounds.OfReals) :
    (∀ dx dy : ℝ,
      ((e.expandBy dx dy).isNull = true ↔
        e.bounds.width + 2 * dx < 0 ∨ e.bounds.height + 2 * dy < 0) ∧
      ((e.expandBy dx dy).isNull = false → ∀ x y : EReal,
        (e.expandBy dx dy).bounds.coversPoint x y = true ↔
          (e.minX - dx ≤ x ∧ x ≤ e.maxX + dx) ∧ e.minY - dy ≤ y ∧ y ≤ e.maxY + dy)) ∧
    (∀ a b c d : ℝ,
      ((e.expandBy a b).isNull = false →
        (e.expandBy a b).expandBy c d = e.expandBy ((a + c : ℝ) : EReal) ((b + d : ℝ) : EReal)) ∧
      ((e.expandBy a b).isNull = true → ((e.expandBy a b).expandBy c d).isNull = true)) ∧
    (∀ s t u v : ℝ, (e.translate s t).translate u v =
      e.translate ((s + u : ℝ) : EReal) ((t + v : ℝ) : EReal)) ∧
    (∀ s t : ℝ,
      (∀ dx dy : ℝ, (e.translate s t).expandBy dx dy = (e.expandBy dx dy).translate s t) ∧
      (∀ x y : EReal, (e.translate s t).expandToInclude (x + s) (y + t) =
        (e.expandToInclude x y).translate s t) ∧
      (∀ o : Envelope EReal, o.bounds.WellFormed →
        o.bounds.Shifted s t (o.translate s t).bounds) ∧
      ∀ o o' : Bounds EReal, o.WellFormed → o.Shifted s t o' →
        (e.translate s t).bounds.intersection o' = (e.bounds.intersection o).translate s t ∧
        (e.translate s t).expandToIncludeBounds o' =
          (e.expandToIncludeBounds o).translate s t) ∧
    ∀ n : Envelope EReal, n.isNull = true → ∀ dx dy : EReal,
      n.expandBy dx dy = n ∧ n.translate dx dy = n := by
  refine ⟨fun dx dy ↦ ⟨isNull_expandBy_iff hnull hreal dx dy, fun h x y ↦ ?_⟩,
    fun a b c d ↦ ⟨fun h ↦ expandBy_expandBy hnull h c d, fun h ↦ ?_⟩,
    translate_translate hwell, fun s t ↦ ⟨translate_expandBy hwell s t,
      translate_expandToInclude hwell s t, fun o how ↦ Bounds.shifted_translate how s t,
      fun o o' how ho ↦ ⟨?_, expandToIncludeBounds_of_shifted hwell how ho⟩⟩,
    fun n hn dx dy ↦ ⟨expandBy_of_isNull hn dx dy, translate_of_isNull hn dx dy⟩⟩
  · rw [Bounds.coversPoint_iff, bounds_isNull, h, eq_self, true_and, expandBy_eq_grown hnull h]
    rfl
  · rw [expandBy_of_isNull h]
    exact h
  · exact Bounds.intersection_of_shifted hwell how (Bounds.shifted_translate hwell s t) ho

/-- A box that is narrower than it is high: shrunk along x alone in two steps it is null although
its height is left, and no later growth brings it back. -/
theorem resize_grows_and_translate_shifts_inverted :
    ∃ e : Envelope EReal, e = ⟨(0 : ℝ), (2 : ℝ), (0 : ℝ), (10 : ℝ)⟩ ∧
      (e.isNull = false ∧ e.bounds.WellFormed ∧ e.bounds.OfReals) ∧
      (e.expandBy (-(1 / 2) : ℝ) (0 : ℝ)).isNull = false ∧
      ((e.expandBy (-(1 / 2) : ℝ) (0 : ℝ)).expandBy (-1 : ℝ) (0 : ℝ)).isNull = true ∧
      ((e.expandBy (-(3 / 2) : ℝ) (0 : ℝ)).expandBy (100 : ℝ) (100 : ℝ)).isNull = true ∧
      (e.translate (2 : ℝ) (-3 : ℝ)).expandBy (-(3 / 2) : ℝ) (0 : ℝ) =
        (e.expandBy (-(3 / 2) : ℝ) (0 : ℝ)).translate (2 : ℝ) (-3 : ℝ) := by
  obtain ⟨e, he⟩ : ∃ e : Envelope EReal, e = ⟨(0 : ℝ), (2 : ℝ), (0 : ℝ), (10 : ℝ)⟩ := ⟨_, rfl⟩
  have horder : e.bounds.InOrder := by
    rw [he]
    refine ⟨EReal.coe_le_coe_iff.mpr ?_, EReal.coe_le_coe_iff.mpr ?_⟩ <;> norm_num
  have hreal : e.bounds.OfReals := ⟨0, 2, 0, 10, by rw [he]; rfl⟩
  have hnull := isNull_of_inOrder horder
  obtain ⟨hsize, hadd, -, hmove, -⟩ :=
    resize_grows_and_translate_shifts hnull (Or.inr horder) hreal
  have hleft (dx : ℝ) : (e.expandBy dx (0 : ℝ)).isNull = true ↔ 2 + 2 * dx < 0 := by
    have hwidth : e.bounds.width + 2 * (dx : EReal) = ((2 - 0 + 2 * dx : ℝ) : EReal) := by
      rw [Bounds.width, bounds_isNull, hnull, he]
      rfl
    have hheight : e.bounds.height + 2 * ((0 : ℝ) : EReal) = ((10 - 0 + 2 * 0 : ℝ) : EReal) := by
      rw [Bounds.height, bounds_isNull, hnull, he]
      rfl
    rw [(hsize dx 0).1, hwidth, hheight, ← EReal.coe_zero, EReal.coe_lt_coe_iff,
      EReal.coe_lt_coe_iff]
    norm_num
  have hhalf : (e.expandBy (-(1 / 2) : ℝ) (0 : ℝ)).isNull = false := by
    rw [← Bool.not_eq_true, hleft]
    norm_num
  have hgone : (e.expandBy (-(3 / 2) : ℝ) (0 : ℝ)).isNull = true := by
    rw [hleft]
    norm_num
  refine ⟨e, he, ⟨hnull, Or.inr horder, hreal⟩, hhalf, ?_, (hadd _ _ 100 100).2 hgone,
    (hmove 2 (-3)).1 _ _⟩
  have hsum : (-(1 / 2) + -1 : ℝ) = -(3 / 2) := by norm_num
  rw [(hadd _ _ (-1) 0).1 hhalf, hsum, add_zero]
  exact hgone

end Envelope

end Geospatial
