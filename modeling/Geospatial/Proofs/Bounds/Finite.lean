import Geospatial.Proofs.Binary.Ordering
import Geospatial.Proofs.Bounds.Region

/-!
# Boxes with finite bounds

`Sound` lists what is taken for granted of a box: its bounds are in order unless it is null, its
extents are not negative, and it intersects and covers itself. Of finite bounds all of this follows
from the first (`sound_iff_wellFormed`); infinite ones need not have an extent at all.

**An envelope that is inverted on y alone is not null,** because null is told by x. It has a
negative height and no points, and the predicates part over it: it covers itself and does not
intersect itself (`Inverted.questions`). Of the envelopes with finite bounds no others are unsound
(`Envelope.sound_iff_not_inverted`).
-/

namespace Geospatial

/-- The difference of finite doubles in order is not negative. -/
theorem Binary.zero_le_sub {a b : Float} (ha : a.isFinite = true) (hb : b.isFinite = true)
    (h : a ≤ b) : 0.0 ≤ b - a := by
  obtain ⟨x, y, hx, hy, hxy⟩ := exists_reals_le ha hb h
  exact roundsTo_zero_zero.le (roundsTo_sub hy hx) (by linarith)

namespace Bounds

/-- The four bounds are finite. -/
structure IsFinite (a : Bounds Float) : Prop where
  minX : a.minX.isFinite = true
  maxX : a.maxX.isFinite = true
  minY : a.minY.isFinite = true
  maxY : a.maxY.isFinite = true

/-- What is taken for granted of a box. -/
structure Sound (a : Bounds Float) : Prop where
  wellFormed : a.WellFormed
  zero_le_width : 0.0 ≤ a.width
  zero_le_height : 0.0 ≤ a.height
  intersects_self : a.isNull = false → a.intersects a = true
  covers_self : a.isNull = false → a.covers a = true

/-- The box is not null, and its upper bound on y lies below the lower one. -/
structure Inverted (a : Bounds Float) : Prop where
  isNull : a.isNull = false
  y : a.maxY < a.minY

variable {a : Bounds Float}

theorem width_of_not_isNull (h : a.isNull = false) : a.width = a.maxX - a.minX := by
  rw [width, h]
  rfl

theorem height_of_not_isNull (h : a.isNull = false) : a.height = a.maxY - a.minY := by
  rw [height, h]
  rfl

/-- **Finite bounds that are in order make a sound box.** -/
theorem sound_iff_wellFormed (hfinite : a.IsFinite) : a.Sound ↔ a.WellFormed := by
  refine ⟨Sound.wellFormed, fun ha ↦ ?_⟩
  have hcovers (h : a.isNull = false) : a.covers a = true := covers_self h (ha.inOrder h)
  refine ⟨ha, ?_, ?_, fun h ↦ intersects_of_covers ha ha (hcovers h), hcovers⟩
  all_goals cases h : a.isNull
  · rw [width_of_not_isNull h]
    exact Binary.zero_le_sub hfinite.minX hfinite.maxX (ha.inOrder h).x
  · rw [width_of_isNull h]
    decide
  · rw [height_of_not_isNull h]
    exact Binary.zero_le_sub hfinite.minY hfinite.maxY (ha.inOrder h).y
  · rw [height_of_isNull h]
    decide

/-- **The predicates part over an inverted box.** It covers itself, as its bounds are equal to
themselves; it does not intersect itself, as they are apart, and no point is in it. -/
theorem Inverted.questions (h : a.Inverted) (hfinite : a.IsFinite) :
    a.height < 0.0 ∧ a.covers a = true ∧ a.intersects a = false ∧ a.region = ∅ := by
  refine ⟨?_, ?_, ?_, ?_⟩
  · rw [height_of_not_isNull h.isNull]
    exact Binary.sub_lt_zero hfinite.maxY hfinite.minY h.y
  · exact covers_iff.mpr ⟨⟨h.isNull, h.isNull⟩,
      ⟨Binary.isNumber_of_isFinite hfinite.minX, Binary.isNumber_of_isFinite hfinite.maxX⟩,
      Binary.isNumber_of_isFinite hfinite.minY, Binary.isNumber_of_isFinite hfinite.maxY⟩
  · rw [← Bool.not_eq_true, intersects_iff]
    exact fun hmeet ↦ hmeet.2.2.1 h.y
  · refine Set.eq_empty_of_forall_notMem fun p hp ↦ ?_
    obtain ⟨-, -, hlower, hupper⟩ := mem_region_iff.mp hp
    exact Ordinate.not_lt_of_le (Ordinate.le_trans hlower hupper) h.y

end Bounds

namespace Envelope

variable {e : Envelope Float}

/-- **Inversion on y is all that can be wrong** with an envelope whose bounds are finite. -/
theorem sound_iff_not_inverted (hfinite : e.bounds.IsFinite) :
    e.bounds.Sound ↔ ¬e.bounds.Inverted := by
  rw [Bounds.sound_iff_wellFormed hfinite]
  constructor
  · exact fun h hinverted ↦
      Ordinate.not_lt_of_le (h.inOrder hinverted.isNull).y hinverted.y
  · intro h
    cases hnull : e.isNull with
    | true => exact Or.inl hnull
    | false =>
      have hx : e.minX ≤ e.maxX := (Ordinate.not_lt_iff_le
        (Binary.isNumber_of_isFinite hfinite.maxX) (Binary.isNumber_of_isFinite hfinite.minX)).mp
          (of_decide_eq_false hnull)
      have hy : e.minY ≤ e.maxY := (Ordinate.not_lt_iff_le
        (Binary.isNumber_of_isFinite hfinite.maxY) (Binary.isNumber_of_isFinite hfinite.minY)).mp
          fun hlt ↦ h ⟨hnull, hlt⟩
      exact Or.inr ⟨hx, hy⟩

end Envelope

end Geospatial
