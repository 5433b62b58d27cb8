import Geospatial.Proofs.Bounds.Region
import Geospatial.Proofs.Envelope.Canonical

/-!
# Segments and the boxes they span

The predicates on segments answer what the same question about the box of the segment would
(`segment_predicates_agree`), without putting that box together.

**The two take the ends of a segment in different ways.** A predicate picks the smaller and the
greater of two values, a box puts the two in order, and where the values are equal without being the
same, as zeros of either sign are, they may end up with different ones. Comparisons do not tell such
values apart, so both come down to questions that name the ends in no order (`spanCovers_iff`,
`spanMeets_iff`), and the direction of a segment does not matter for the same reason.

Everything is said of one axis first and then of two. The predicates read the second axis only when
the first has not decided; of positions that can be read, that is no more than a conjunction.
-/

namespace Geospatial

/-! ### One axis -/

section Axis

variable {α : Type} [Ordinate α] [LawfulOrdinate α] {a b c d v low high : α}

section

variable (ha : Ordinate.IsNumber a) (hb : Ordinate.IsNumber b)

include ha hb

/-- A value is covered when an end is at most that value and an end is at least that value. -/
theorem spanCovers_iff : spanCovers a b v = true ↔ (a ≤ v ∨ b ≤ v) ∧ (v ≤ a ∨ v ≤ b) := by
  rw [spanCovers, Bool.and_eq_true, decide_eq_true_eq, decide_eq_true_eq,
    Ordinate.lesser_eq_inOrder_fst, Ordinate.greater_eq_inOrder_snd,
    Ordinate.inOrder_fst_le ha hb, Ordinate.le_inOrder_snd hb ha, or_comm (a := v ≤ b)]

/-- A span misses an interval only when both of its ends lie on the same side. -/
theorem spanMeets_iff :
    spanMeets a b low high = true ↔ ¬(high < a ∧ high < b) ∧ ¬(a < low ∧ b < low) := by
  rw [spanMeets, Bool.not_eq_true', Bool.or_eq_false_iff, decide_eq_false_iff_not,
    decide_eq_false_iff_not, Ordinate.lesser_eq_inOrder_fst, Ordinate.greater_eq_inOrder_snd,
    Ordinate.lt_inOrder_fst ha hb, Ordinate.inOrder_snd_lt hb ha, and_comm (a := b < low)]

/-- The span that is reached into may be put in order, its ends need not be picked. -/
theorem spanMeets_inOrder (hc : Ordinate.IsNumber c) (hd : Ordinate.IsNumber d) :
    spanMeets a b (lesser c d) (greater c d) = spanMeets a b (inOrder c d).1 (inOrder c d).2 := by
  have hlast {v : α} : (inOrder d c).2 < v ↔ (inOrder c d).2 < v := by
    rw [Ordinate.inOrder_snd_lt hd hc, Ordinate.inOrder_snd_lt hc hd, and_comm]
  rw [Bool.eq_iff_iff, spanMeets_iff ha hb, spanMeets_iff ha hb, Ordinate.lesser_eq_inOrder_fst,
    Ordinate.greater_eq_inOrder_snd, hlast, hlast]

end

end Axis

/-! ### The box of a segment -/

namespace Envelope

variable {α : Type} [Ordinate α] [LawfulOrdinate α] {a : Bounds α} {x1 x2 y1 y2 x y : α}
  (hx1 : Ordinate.IsNumber x1) (hx2 : Ordinate.IsNumber x2) (hy1 : Ordinate.IsNumber y1)
  (hy2 : Ordinate.IsNumber y2)

include hx1 hx2 hy1 hy2

theorem coversPoint_spanning :
    (spanning x1 x2 y1 y2).bounds.coversPoint x y =
      (spanCovers x1 x2 x && spanCovers y1 y2 y) := by
  rw [Bool.eq_iff_iff, Bounds.coversPoint_iff, Bool.and_eq_true, spanCovers_iff hx1 hx2,
    spanCovers_iff hy1 hy2, bounds_isNull, isNull_spanning hx1 hx2 hy1 hy2, eq_self, true_and]
  exact and_congr
    (and_congr (Ordinate.inOrder_fst_le hx1 hx2) (Ordinate.le_inOrder_snd hx1 hx2))
    (and_congr (Ordinate.inOrder_fst_le hy1 hy2) (Ordinate.le_inOrder_snd hy1 hy2))

/-- A box meets that of a segment where both spans meet its sides. -/
theorem intersects_spanning :
    a.intersects (spanning x1 x2 y1 y2).bounds =
      (!a.isNull && (spanMeets x1 x2 a.minX a.maxX && spanMeets y1 y2 a.minY a.maxY)) := by
  rw [Bool.eq_iff_iff, Bounds.intersects_iff, Bool.and_eq_true, Bool.not_eq_true',
    Bool.and_eq_true, spanMeets_iff hx1 hx2, spanMeets_iff hy1 hy2, bounds_isNull,
    isNull_spanning hx1 hx2 hy1 hy2, eq_self, and_true]
  refine and_congr_right' (and_congr (and_congr ?_ ?_) (and_congr ?_ ?_))
  · exact not_congr (Ordinate.lt_inOrder_fst hx1 hx2)
  · exact not_congr (Ordinate.inOrder_snd_lt hx1 hx2)
  · exact not_congr (Ordinate.lt_inOrder_fst hy1 hy2)
  · exact not_congr (Ordinate.inOrder_snd_lt hy1 hy2)

/-- **The direction of a segment does not show in its box.** -/
theorem coversPoint_spanning_comm :
    (spanning x2 x1 y2 y1).bounds.coversPoint x y =
      (spanning x1 x2 y1 y2).bounds.coversPoint x y := by
  rw [coversPoint_spanning hx1 hx2 hy1 hy2, coversPoint_spanning hx2 hx1 hy2 hy1, Bool.eq_iff_iff,
    Bool.and_eq_true, Bool.and_eq_true, spanCovers_iff hx1 hx2, spanCovers_iff hx2 hx1,
    spanCovers_iff hy1 hy2, spanCovers_iff hy2 hy1]
  exact and_congr (and_congr or_comm or_comm) (and_congr or_comm or_comm)

theorem intersects_spanning_comm :
    a.intersects (spanning x2 x1 y2 y1).bounds = a.intersects (spanning x1 x2 y1 y2).bounds := by
  rw [intersects_spanning hx1 hx2 hy1 hy2, intersects_spanning hx2 hx1 hy2 hy1, Bool.eq_iff_iff,
    Bool.and_eq_true, Bool.and_eq_true, Bool.and_eq_true, Bool.and_eq_true,
    spanMeets_iff hx1 hx2, spanMeets_iff hx2 hx1, spanMeets_iff hy1 hy2, spanMeets_iff hy2 hy1]
  exact and_congr_right' (and_congr
    (and_congr (not_congr and_comm) (not_congr and_comm))
    (and_congr (not_congr and_comm) (not_congr and_comm)))

end Envelope

/-! ### Positions -/

section Position

variable {α : Type} [Ordinate α]

/-- The position reads as the place of two numbers. -/
structure Position.ReadsAs (p : Position α) (x y : α) : Prop where
  x_eq : p.x = .ok x
  y_eq : p.y = .ok y
  isNumber_x : Ordinate.IsNumber x
  isNumber_y : Ordinate.IsNumber y

theorem Position.OfNumbers.readsAs {p : Position Float} (h : p.OfNumbers) :
    ∃ x y, p.ReadsAs x y := by
  obtain ⟨x, y, ⟨hx, hy⟩, hnumX, hnumY⟩ := h
  exact ⟨x, y, hx, hy, hnumX, hnumY⟩

variable {p q r p1 p2 q1 q2 : Position α} {x y x1 y1 x2 y2 u1 v1 u2 v2 : α}

theorem Position.ReadsAs.coversPosition (h : p.ReadsAs x y) (a : Bounds α) :
    a.coversPosition p = .ok (a.coversPoint x y) := by
  rw [Bounds.coversPosition, Position.plane, h.x_eq, h.y_eq]
  rfl

/-- Two positions that can be read span the box between them. -/
theorem ofPositions_of_readsAs (hp : p.ReadsAs x1 y1) (hq : q.ReadsAs x2 y2) :
    Envelope.ofPositions p q = .ok (.spanning x1 x2 y1 y2) := by
  rw [Envelope.ofPositions, hp.x_eq, hq.x_eq, hp.y_eq, hq.y_eq]
  rfl

variable [LawfulOrdinate α]

/-- **Covering by a segment** is covering by its box. -/
theorem segmentCovers_of_readsAs (hp : p.ReadsAs x1 y1) (hq : q.ReadsAs x2 y2)
    (hr : r.ReadsAs x y) :
    segmentCovers p q r = .ok ((Envelope.spanning x1 x2 y1 y2).bounds.coversPoint x y) := by
  rw [Envelope.coversPoint_spanning hp.isNumber_x hq.isNumber_x hp.isNumber_y hq.isNumber_y,
    segmentCovers, hp.x_eq, hq.x_eq, hr.x_eq, hp.y_eq, hq.y_eq, hr.y_eq]
  cases hx : spanCovers x1 x2 x with
  | false => exact if_neg (Bool.eq_false_iff.mp hx)
  | true => exact if_pos hx

/-- **Meeting of two segments** is intersection of their boxes. -/
theorem segmentsMeet_of_readsAs (hp1 : p1.ReadsAs x1 y1) (hp2 : p2.ReadsAs x2 y2)
    (hq1 : q1.ReadsAs u1 v1) (hq2 : q2.ReadsAs u2 v2) :
    segmentsMeet p1 p2 q1 q2 =
      .ok ((Envelope.spanning x1 x2 y1 y2).bounds.intersects
        (Envelope.spanning u1 u2 v1 v2).bounds) := by
  -- the box of the first segment is asked against that of the second
  have hbox : (Envelope.spanning x1 x2 y1 y2).bounds.intersects
      (Envelope.spanning u1 u2 v1 v2).bounds =
        (spanMeets x1 x2 (lesser u1 u2) (greater u1 u2) &&
          spanMeets y1 y2 (lesser v1 v2) (greater v1 v2)) := by
    rw [Bounds.intersects_comm,
      Envelope.intersects_spanning hp1.isNumber_x hp2.isNumber_x hp1.isNumber_y hp2.isNumber_y,
      Envelope.bounds_isNull,
      Envelope.isNull_spanning hq1.isNumber_x hq2.isNumber_x hq1.isNumber_y hq2.isNumber_y,
      spanMeets_inOrder hp1.isNumber_x hp2.isNumber_x hq1.isNumber_x hq2.isNumber_x,
      spanMeets_inOrder hp1.isNumber_y hp2.isNumber_y hq1.isNumber_y hq2.isNumber_y]
    rfl
  rw [hbox, segmentsMeet, hp1.x_eq, hp2.x_eq, hq1.x_eq, hq2.x_eq, hp1.y_eq, hp2.y_eq, hq1.y_eq,
    hq2.y_eq]
  cases hx : spanMeets x1 x2 (lesser u1 u2) (greater u1 u2) with
  | false => exact if_neg (Bool.eq_false_iff.mp hx)
  | true => exact if_pos hx

/-- **A box meets a segment** when it intersects the segment's box. -/
theorem intersectsSegment_of_readsAs (hp : p.ReadsAs x1 y1) (hq : q.ReadsAs x2 y2)
    (a : Bounds α) :
    a.intersectsSegment p q = .ok (a.intersects (Envelope.spanning x1 x2 y1 y2).bounds) := by
  rw [Envelope.intersects_spanning hp.isNumber_x hq.isNumber_x hp.isNumber_y hq.isNumber_y]
  cases hnull : a.isNull with
  | true => exact Bounds.intersectsSegment_of_isNull hnull p q
  | false =>
    rw [Bounds.intersectsSegment, hnull, hp.x_eq, hq.x_eq, hp.y_eq, hq.y_eq]
    cases hx : spanMeets x1 x2 a.minX a.maxX with
    | false => exact if_neg (Bool.eq_false_iff.mp hx)
    | true => exact if_pos hx

end Position

/-- **The predicates on segments agree with the boxes they stand for,** whichever end of a segment
and whichever segment comes first. -/
theorem segment_predicates_agree {p1 p2 q1 q2 : Position Float} (hp1 : p1.OfNumbers)
    (hp2 : p2.OfNumbers) (hq1 : q1.OfNumbers) (hq2 : q2.OfNumbers) :
    ∃ e f : Envelope Float,
      Envelope.ofPositions p1 p2 = .ok e ∧ Envelope.ofPositions q1 q2 = .ok f ∧
      (∀ q : Position Float, q.OfNumbers → ∃ r, e.bounds.coversPosition q = .ok r ∧
        segmentCovers p1 p2 q = .ok r ∧ segmentCovers p2 p1 q = .ok r) ∧
      (segmentsMeet p1 p2 q1 q2 = .ok (e.bounds.intersects f.bounds) ∧
        segmentsMeet p2 p1 q1 q2 = .ok (e.bounds.intersects f.bounds) ∧
        segmentsMeet p1 p2 q2 q1 = .ok (e.bounds.intersects f.bounds) ∧
        segmentsMeet q1 q2 p1 p2 = .ok (e.bounds.intersects f.bounds)) ∧
      ∀ a : Bounds Float, a.intersectsSegment p1 p2 = .ok (a.intersects e.bounds) ∧
        a.intersectsSegment p2 p1 = .ok (a.intersects e.bounds) := by
  obtain ⟨x1, y1, hp1⟩ := hp1.readsAs
  obtain ⟨x2, y2, hp2⟩ := hp2.readsAs
  obtain ⟨u1, v1, hq1⟩ := hq1.readsAs
  obtain ⟨u2, v2, hq2⟩ := hq2.readsAs
  -- each box is asked the same with the ends of its segment the other way round
  have hswap (a : Bounds Float) : a.intersects (Envelope.spanning x2 x1 y2 y1).bounds =
      a.intersects (Envelope.spanning x1 x2 y1 y2).bounds :=
    Envelope.intersects_spanning_comm hp1.isNumber_x hp2.isNumber_x hp1.isNumber_y hp2.isNumber_y
  have hswap' (a : Bounds Float) : a.intersects (Envelope.spanning u2 u1 v2 v1).bounds =
      a.intersects (Envelope.spanning u1 u2 v1 v2).bounds :=
    Envelope.intersects_spanning_comm hq1.isNumber_x hq2.isNumber_x hq1.isNumber_y hq2.isNumber_y
  refine ⟨_, _, ofPositions_of_readsAs hp1 hp2, ofPositions_of_readsAs hq1 hq2, ?_,
    ⟨segmentsMeet_of_readsAs hp1 hp2 hq1 hq2, ?_, ?_, ?_⟩,
    fun a ↦ ⟨intersectsSegment_of_readsAs hp1 hp2 a, ?_⟩⟩
  · intro q hq
    obtain ⟨x, y, hq⟩ := hq.readsAs
    refine ⟨_, hq.coversPosition _, segmentCovers_of_readsAs hp1 hp2 hq, ?_⟩
    rw [segmentCovers_of_readsAs hp2 hp1 hq, Envelope.coversPoint_spanning_comm hp1.isNumber_x
      hp2.isNumber_x hp1.isNumber_y hp2.isNumber_y]
  · rw [segmentsMeet_of_readsAs hp2 hp1 hq1 hq2, Bounds.intersects_comm, hswap,
      Bounds.intersects_comm]
  · rw [segmentsMeet_of_readsAs hp1 hp2 hq2 hq1, hswap']
  · rw [segmentsMeet_of_readsAs hq1 hq2 hp1 hp2, Bounds.intersects_comm]
  · rw [intersectsSegment_of_readsAs hp2 hp1 a, hswap]

/-- A segment along the axis that comes from infinity, between zeros of either sign, and one that
ends on it: whichever way they are read, they meet where the second one ends. -/
theorem segment_predicates_agree_from_infinity :
    ∃ p1 p2 q1 q2 : Position Float,
      p1 = .bare [Ordinate.infinity, -0.0] ∧ p2 = .bare [1.0, 0.0] ∧ q1 = .bare [2.0, 0.0] ∧
        q2 = .bare [2.0, 3.0] ∧
        (p1.OfNumbers ∧ p2.OfNumbers ∧ q1.OfNumbers ∧ q2.OfNumbers) ∧
        segmentsMeet p2 p1 q1 q2 = .ok true ∧ segmentsMeet q1 q2 p1 p2 = .ok true ∧
        segmentCovers p2 p1 q1 = .ok true ∧ segmentCovers p2 p1 q2 = .ok false := by
  have hp1 : (Position.bare [Ordinate.infinity, (-0.0 : Float)]).OfNumbers :=
    ⟨_, _, ⟨rfl, rfl⟩, by decide, by decide⟩
  have hp2 : (Position.bare [(1.0 : Float), 0.0]).OfNumbers :=
    ⟨_, _, ⟨rfl, rfl⟩, by decide, by decide⟩
  have hq1 : (Position.bare [(2.0 : Float), 0.0]).OfNumbers :=
    ⟨_, _, ⟨rfl, rfl⟩, by decide, by decide⟩
  have hq2 : (Position.bare [(2.0 : Float), 3.0]).OfNumbers :=
    ⟨_, _, ⟨rfl, rfl⟩, by decide, by decide⟩
  obtain ⟨e, f, he, hf, hcovers, ⟨-, hmeet, -, hmeet'⟩, -⟩ :=
    segment_predicates_agree hp1 hp2 hq1 hq2
  obtain rfl := Except.ok.inj he
  obtain rfl := Except.ok.inj hf
  obtain ⟨r, hr, -, hcovers1⟩ := hcovers _ hq1
  obtain ⟨r', hr', -, hcovers2⟩ := hcovers _ hq2
  obtain rfl : true = r := Except.ok.inj hr
  obtain rfl : false = r' := Except.ok.inj hr'
  exact ⟨_, _, _, _, rfl, rfl, rfl, rfl, ⟨hp1, hp2, hq1, hq2⟩, hmeet, hmeet', hcovers1, hcovers2⟩

end Geospatial
