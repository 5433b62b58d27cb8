import Geospatial.Proofs.Bounds.Congruence
import Geospatial.Proofs.Envelope.Canonical
import Geospatial.Rect

/-!
# One box in different forms

A box can be copied into an envelope of its own, an envelope can be made of a rectangle and a
rectangle of an envelope. Each of these puts the bounds in order once more, whether or not they
stand in order already, and bounds that are equal change places: a box without extent from negative
to positive zero comes back with its signs exchanged. So what is kept is the region
(`region_toEnvelope`) and not the bounds themselves, and a box and its copies are equal boxes, which
answer alike.

**There is only one conversion to look at.** The envelope of a rectangle is a copy of the rectangle
as a box, and the rectangle of an envelope has the bounds of the envelope's copy
(`Envelope.bounds_toRect?`).
-/

namespace Geospatial

namespace Bounds

variable {a : Bounds Float}

/-- A box that is not null is converted by sorting its bounds. -/
theorem toEnvelope_of_not_isNull (h : a.isNull = false) :
    a.toEnvelope = .spanning a.minX a.maxX a.minY a.maxY := by
  rw [toEnvelope, h]
  rfl

theorem wellFormed_toEnvelope (ha : a.WellFormed) : a.toEnvelope.bounds.WellFormed := by
  cases h : a.isNull with
  | true =>
    rw [toEnvelope_of_isNull h]
    exact Or.inl Envelope.isNull_null
  | false =>
    rw [toEnvelope_of_not_isNull h]
    exact Or.inr (inOrder_spanning (ha.inOrder h).x (ha.inOrder h).y)

/-- **Copying a box keeps its region.** -/
theorem region_toEnvelope (ha : a.WellFormed) : a.toEnvelope.bounds.region = a.region := by
  cases h : a.isNull with
  | true =>
    rw [toEnvelope_of_isNull h, region_of_isNull h]
    exact region_of_isNull Envelope.isNull_null
  | false =>
    rw [toEnvelope_of_not_isNull h]
    ext ⟨x, y⟩
    rw [mem_region_spanning (ha.inOrder h).x (ha.inOrder h).y, mem_region_iff, h, eq_self,
      true_and]

/-- The conversion gives a box that is equal to the one it was made of. -/
theorem toEnvelope_equals (ha : a.WellFormed) : a.toEnvelope.bounds.equals a = true :=
  (equals_iff_region_eq (wellFormed_toEnvelope ha) ha).mpr (region_toEnvelope ha)

end Bounds

/-! ### Rectangles and envelopes -/

/-- **A rectangle reads like the envelope that the same numbers span.** -/
theorem Rect.bounds_ofCorners {α : Type} [Ordinate α] [LawfulOrdinate α] {x1 y1 x2 y2 : α}
    (hx1 : Ordinate.IsNumber x1) (hy1 : Ordinate.IsNumber y1) (hx2 : Ordinate.IsNumber x2)
    (hy2 : Ordinate.IsNumber y2) :
    (ofCorners x1 y1 x2 y2).bounds = (Envelope.spanning x1 x2 y1 y2).bounds := by
  rw [Envelope.bounds, Envelope.isNull_spanning hx1 hx2 hy1 hy2]
  rfl

/-- A rectangle as it stands, the envelope made of it, and the copy of its bounds. -/
def Rect.forms {α : Type} [Ordinate α] (r : Rect α) : List (Bounds α) :=
  [r.bounds, r.toEnvelope.bounds, r.bounds.toEnvelope.bounds]

namespace Envelope

variable {e : Envelope Float} {r : Rect Float}

/-- There is a rectangle for every envelope that is not null. -/
theorem toRect?_eq_none_iff : e.toRect? = none ↔ e.isNull = true := by
  rw [toRect?]
  split
  next h => exact iff_of_true rfl h
  next h => exact iff_of_false nofun h

/-- The rectangle of an envelope has the bounds of the envelope's copy. -/
theorem bounds_toRect? (he : e.bounds.WellFormed) (hr : e.toRect? = some r) :
    r.bounds = e.bounds.toEnvelope.bounds := by
  have hnull : e.isNull = false := by
    rw [← Bool.not_eq_true, ← toRect?_eq_none_iff, hr]
    nofun
  have horder := he.inOrder hnull
  rw [toRect?, hnull, if_neg Bool.false_ne_true] at hr
  obtain rfl := Option.some.inj hr
  rw [Bounds.toEnvelope_of_not_isNull hnull]
  exact Rect.bounds_ofCorners (Ordinate.isNumber_left horder.x) (Ordinate.isNumber_left horder.y)
    (Ordinate.isNumber_right horder.x) (Ordinate.isNumber_right horder.y)

/-- The envelope of the rectangle of an envelope is a copy of a copy. -/
theorem toEnvelope_toRect? (he : e.bounds.WellFormed) (hr : e.toRect? = some r) :
    r.toEnvelope.bounds.WellFormed ∧ r.toEnvelope.bounds.equals e.bounds = true := by
  have hcopy := Bounds.wellFormed_toEnvelope he
  have hrect : r.toEnvelope = e.bounds.toEnvelope.bounds.toEnvelope := by
    rw [← bounds_toRect? he hr]
    rfl
  rw [hrect]
  exact ⟨Bounds.wellFormed_toEnvelope hcopy,
    Bounds.equals_trans (Bounds.toEnvelope_equals hcopy) (Bounds.toEnvelope_equals he)⟩

end Envelope

namespace Bounds

/-- **Conversions keep the box.** An envelope has a rectangle unless it is null, and the envelope of
that rectangle and the envelope's copy are equal to it; a rectangle, whichever way round its corners
are given, is equal to the envelope made of it and to its copy. Boxes in different forms answer
alike, and have one digest, on either side of any question. -/
theorem conversions_keep_box :
    (∀ e : Envelope Float, e.bounds.WellFormed →
      (e.toRect? = none ↔ e.isNull = true) ∧
      (∀ r, e.toRect? = some r →
        r.toEnvelope.bounds.equals e.bounds = true ∧ r.toEnvelope.bounds.Alike e.bounds) ∧
      e.bounds.toEnvelope.bounds.equals e.bounds = true ∧
      e.bounds.toEnvelope.bounds.Alike e.bounds) ∧
    ∀ x1 y1 x2 y2 : Float, x1.isNaN = false → y1.isNaN = false → x2.isNaN = false →
      y2.isNaN = false →
        ∀ a ∈ (Rect.ofCorners x1 y1 x2 y2).forms, ∀ b ∈ (Rect.ofCorners x1 y1 x2 y2).forms,
          a.equals b = true ∧ a.Alike b := by
  constructor
  · intro e he
    have hcopy := toEnvelope_equals he
    refine ⟨Envelope.toRect?_eq_none_iff, fun r hr ↦ ?_, hcopy,
      alike_of_equals (wellFormed_toEnvelope he) he hcopy⟩
    obtain ⟨hwell, hequal⟩ := Envelope.toEnvelope_toRect? he hr
    exact ⟨hequal, alike_of_equals hwell he hequal⟩
  · intro x1 y1 x2 y2 hx1 hy1 hx2 hy2
    rw [← Binary.isNumber_iff] at hx1 hy1 hx2 hy2
    have hrect : (Rect.ofCorners x1 y1 x2 y2).bounds.WellFormed :=
      Or.inr (Envelope.inOrder_rect hx1 hy1 hx2 hy2)
    have hform : ∀ a ∈ (Rect.ofCorners x1 y1 x2 y2).forms,
        a.WellFormed ∧ a.region = (Rect.ofCorners x1 y1 x2 y2).bounds.region := by
      -- the envelope made of a rectangle is a copy of its bounds
      have hcopy := And.intro (wellFormed_toEnvelope hrect) (region_toEnvelope hrect)
      simp only [Rect.forms, List.forall_mem_cons, List.not_mem_nil, false_implies, implies_true,
        and_true]
      exact ⟨hrect, hcopy, hcopy⟩
    intro a ha b hb
    obtain ⟨hwellA, hregionA⟩ := hform a ha
    obtain ⟨hwellB, hregionB⟩ := hform b hb
    have hequal : a.equals b = true :=
      (equals_iff_region_eq hwellA hwellB).mpr (hregionA.trans hregionB.symm)
    exact ⟨hequal, alike_of_equals hwellA hwellB hequal⟩

/-- A box from negative to positive zero, whose rectangle and whose copy have the signs the other
way round, and a third box that shares its upper edge. The rectangle is also what corners make of it
that are given from the upper to the lower one. -/
theorem conversions_keep_box_between_zeros :
    ∃ (e : Envelope Float) (r : Rect Float) (c : Bounds Float),
      e = ⟨-0.0, 0.0, 1.0, 2.0⟩ ∧ r = ⟨0.0, 1.0, -0.0, 2.0⟩ ∧
        c = ⟨false, -1.0, 3.0, 2.0, 4.0⟩ ∧
        e.toRect? = some r ∧ .ofCorners (-0.0) 2.0 0.0 1.0 = r ∧
        e.bounds.toEnvelope = ⟨0.0, -0.0, 1.0, 2.0⟩ ∧
        r.toEnvelope.bounds.equals e.bounds = true ∧
        e.bounds.toEnvelope.bounds.digest = e.bounds.digest ∧
        c.intersects r.bounds = true ∧ c.intersects r.toEnvelope.bounds = true ∧
        (c.intersection r.bounds).bounds.equals (c.intersection r.toEnvelope.bounds).bounds =
          true := by
  let e : Envelope Float := ⟨-0.0, 0.0, 1.0, 2.0⟩
  let r : Rect Float := ⟨0.0, 1.0, -0.0, 2.0⟩
  let c : Bounds Float := ⟨false, -1.0, 3.0, 2.0, 4.0⟩
  have hr : (⟨-0.0, 0.0, 1.0, 2.0⟩ : Envelope Float).toRect? = some r := rfl
  have hcorners : Rect.ofCorners (-0.0) 2.0 0.0 1.0 = r := rfl
  have hcopied : (⟨-0.0, 0.0, 1.0, 2.0⟩ : Envelope Float).bounds.toEnvelope =
    ⟨0.0, -0.0, 1.0, 2.0⟩ := rfl
  obtain ⟨hconvert, hforms⟩ := conversions_keep_box
  obtain ⟨-, hrect, -, hcopy⟩ := hconvert e (Or.inr ⟨by decide, by decide⟩)
  obtain ⟨-, hsame⟩ := hforms (-0.0) 2.0 0.0 1.0 (by decide) (by decide) (by decide) (by decide)
    r.bounds (hcorners ▸ List.mem_cons_self) r.toEnvelope.bounds
    (hcorners ▸ List.mem_cons_of_mem _ List.mem_cons_self)
  have hmeet : (⟨false, -1.0, 3.0, 2.0, 4.0⟩ : Bounds Float).intersects
      (⟨0.0, 1.0, -0.0, 2.0⟩ : Rect Float).bounds = true := by
    decide
  exact ⟨e, r, c, rfl, rfl, rfl, hr, hcorners, hcopied, (hrect r hr).1, hcopy.digest, hmeet,
    (hsame.intersects c).2.symm.trans hmeet,
    (hsame.intersection c (Or.inr ⟨by decide, by decide⟩)).2⟩

end Bounds

end Geospatial
