import Geospatial.Envelope.Change
import Geospatial.Proofs.Binary.Arithmetic
import Geospatial.Proofs.Extrema.Refinement

/-!
# Envelopes are canonical

An envelope is canonical when it is exactly the null envelope, or its bounds are four numbers in
order on both axes. Nothing else can be reached: `Envelope.Reached` is everything that can be made
of numbers and changed by numbers and finite amounts, and `Reached.canonical` follows it through
every way of making and changing an envelope.

**Being null is told by x alone, and rightly so.** An envelope inverted on y only would pass for a
box; `isNull_iff_of_canonical` says that the test and the null envelope are the same thing here.

An operation may overflow. Infinite bounds are numbers and stay in order, so they need no case of
their own; only where an infinite amount meets an infinite bound would there be no number, and
amounts are finite.
-/

namespace Geospatial

/-! ### What keeps an envelope canonical -/

namespace Envelope

/-- Exactly the null envelope, or bounds in order. -/
def Canonical (e : Envelope Float) : Prop :=
  e = .null ∨ e.bounds.InOrder

variable {e : Envelope Float}

theorem canonical_null : (null : Envelope Float).Canonical :=
  Or.inl rfl

theorem Canonical.wellFormed (h : e.Canonical) : e.bounds.WellFormed := by
  rcases h with rfl | h
  · exact Or.inl isNull_null
  · exact Or.inr h

/-- Among canonical envelopes only one is null. -/
theorem isNull_iff_of_canonical (h : e.Canonical) : e.isNull = true ↔ e = .null := by
  constructor
  · intro hnull
    rcases h with rfl | h
    · rfl
    · rw [isNull_of_inOrder h] at hnull
      cases hnull
  · rintro rfl
    exact isNull_null

theorem canonical_spanning {x1 x2 y1 y2 : Float} (hx1 : Ordinate.IsNumber x1)
    (hx2 : Ordinate.IsNumber x2) (hy1 : Ordinate.IsNumber y1) (hy2 : Ordinate.IsNumber y2) :
    (spanning x1 x2 y1 y2).Canonical :=
  Or.inr (inOrder_spanning hx1 hx2 hy1 hy2)

theorem canonical_ofPoint {x y : Float} (hx : Ordinate.IsNumber x) (hy : Ordinate.IsNumber y) :
    (ofPoint x y).Canonical :=
  Or.inr (inOrder_ofPoint hx hy)

/-- Boxes in order have a hull in order, and a null one adds nothing. -/
theorem Canonical.expandToIncludeBounds (h : e.Canonical) {o : Bounds Float}
    (ho : o.WellFormed) : (e.expandToIncludeBounds o).Canonical := by
  cases hnull : o.isNull with
  | true => rwa [expandToIncludeBounds_of_isNull hnull]
  | false => exact Or.inr (inOrder_expandToIncludeBounds h.wellFormed hnull (ho.inOrder hnull))

theorem Canonical.expandToInclude (h : e.Canonical) {x y : Float} (hx : Ordinate.IsNumber x)
    (hy : Ordinate.IsNumber y) : (e.expandToInclude x y).Canonical := by
  rw [expandToInclude_eq_expandToIncludeBounds]
  exact h.expandToIncludeBounds (Or.inr (inOrder_ofPoint hx hy))

/-- By induction along the points: each is added to what is canonical already. -/
theorem Canonical.expandToIncludeAll (h : e.Canonical) {points : List (Float × Float)}
    (hpoints : ∀ p ∈ points, Ordinate.IsNumber p.1 ∧ Ordinate.IsNumber p.2) :
    (e.expandToIncludeAll points).Canonical := by
  induction points generalizing e with
  | nil => exact h
  | cons p points ih =>
    obtain ⟨hx, hy⟩ := hpoints p List.mem_cons_self
    exact ih (h.expandToInclude hx hy) fun q hq ↦ hpoints q (List.mem_cons_of_mem p hq)

/-- **Resizing.** What is not inverted on either axis is in order on both, since a finite amount
leaves numbers. -/
theorem Canonical.expandBy (h : e.Canonical) {dx dy : Float} (hdx : dx.isFinite = true)
    (hdy : dy.isFinite = true) : (e.expandBy dx dy).Canonical := by
  rcases h with rfl | h
  · exact canonical_null
  · have hminX := Binary.isNumber_sub (Ordinate.isNumber_left h.x) hdx
    have hmaxX := Binary.isNumber_add (Ordinate.isNumber_right h.x) hdx
    have hminY := Binary.isNumber_sub (Ordinate.isNumber_left h.y) hdy
    have hmaxY := Binary.isNumber_add (Ordinate.isNumber_right h.y) hdy
    rw [Envelope.expandBy, isNull_of_inOrder h, if_neg Bool.false_ne_true]
    dsimp only
    split
    next => exact canonical_null
    next hnot =>
      -- both axes were asked, so neither is inverted
      obtain ⟨hx, hy⟩ := not_or.mp hnot
      exact Or.inr ⟨(Ordinate.not_lt_iff_le hmaxX hminX).mp hx,
        (Ordinate.not_lt_iff_le hmaxY hminY).mp hy⟩

/-- Finite shifts keep numbers numbers, and the sums are sorted again. -/
theorem Canonical.translate (h : e.Canonical) {dx dy : Float} (hdx : dx.isFinite = true)
    (hdy : dy.isFinite = true) : (e.translate dx dy).Canonical := by
  rcases h with rfl | h
  · exact canonical_null
  · rw [Envelope.translate, isNull_of_inOrder h, if_neg Bool.false_ne_true]
    exact canonical_spanning (Binary.isNumber_add (Ordinate.isNumber_left h.x) hdx)
      (Binary.isNumber_add (Ordinate.isNumber_right h.x) hdx)
      (Binary.isNumber_add (Ordinate.isNumber_left h.y) hdy)
      (Binary.isNumber_add (Ordinate.isNumber_right h.y) hdy)

end Envelope

/-! ### Arguments made of numbers -/

/-- A position that reads as a place made of two numbers. -/
def Position.OfNumbers (p : Position Float) : Prop :=
  ∃ x y, (p.x = .ok x ∧ p.y = .ok y) ∧ Ordinate.IsNumber x ∧ Ordinate.IsNumber y

/-- A sequence whose coordinates are made of numbers, and can be read. -/
def Sequence.OfNumbers (s : Sequence Float) : Prop :=
  ∀ i < s.size,
    ∃ x y, (s.x i = .ok x ∧ s.y i = .ok y) ∧ Ordinate.IsNumber x ∧ Ordinate.IsNumber y

/-- A position of numbers can be read at x and y, and gives numbers there. -/
theorem Position.OfNumbers.plane {p : Position Float} (h : p.OfNumbers) :
    ∃ x y, p.plane = .ok (x, y) ∧ Ordinate.IsNumber x ∧ Ordinate.IsNumber y := by
  obtain ⟨x, y, ⟨hx, hy⟩, hnumbers⟩ := h
  exact ⟨x, y, bind_eq_ok_iff.mpr ⟨x, hx, bind_eq_ok_iff.mpr ⟨y, hy, rfl⟩⟩, hnumbers⟩

theorem Sequence.OfNumbers.points {s : Sequence Float} (h : s.OfNumbers) :
    ∃ l, s.points = .ok l ∧ ∀ p ∈ l, Ordinate.IsNumber p.1 ∧ Ordinate.IsNumber p.2 :=
  Sequence.exists_points_of_forall h

/-- The bounds read through a fresh scan are well formed. -/
theorem Sequence.OfNumbers.wellFormed {s : Sequence Float} (h : s.OfNumbers)
    {b : IndexedBox Float} {a : Bounds Float} (hb : IndexedBox.ofSequence s = .ok b)
    (ha : b.bounds = .ok a) : a.WellFormed := by
  obtain ⟨l, hl, hnumbers⟩ := h.points
  obtain ⟨b', a', hrefines⟩ := IndexedBox.exists_refines hl
  obtain rfl := Except.ok.inj (hb.symm.trans hrefines.scanned)
  obtain rfl := Except.ok.inj (ha.symm.trans hrefines.read)
  exact hrefines.wellFormed (Envelope.canonical_null.expandToIncludeAll hnumbers).wellFormed

/-! ### Everything that can be reached -/

namespace Envelope

mutual

/-- Envelopes made of numbers, and what allowed changes make of them. -/
inductive Reached : Envelope Float → Prop
  | null : Reached .null
  | span {x1 x2 y1 y2 : Float} (hx1 : Ordinate.IsNumber x1) (hx2 : Ordinate.IsNumber x2)
      (hy1 : Ordinate.IsNumber y1) (hy2 : Ordinate.IsNumber y2) : Reached (.spanning x1 x2 y1 y2)
  | position {p : Position Float} {e : Envelope Float} (hp : p.OfNumbers)
      (he : ofPosition p = .ok e) : Reached e
  | positions {p q : Position Float} {e : Envelope Float} (hp : p.OfNumbers) (hq : q.OfNumbers)
      (he : ofPositions p q = .ok e) : Reached e
  | collected {ps : List (Position Float)} {e : Envelope Float} (hps : ∀ p ∈ ps, p.OfNumbers)
      (he : collect ps = .ok e) : Reached e
  | rect {x1 y1 x2 y2 : Float} (hx1 : Ordinate.IsNumber x1) (hy1 : Ordinate.IsNumber y1)
      (hx2 : Ordinate.IsNumber x2) (hy2 : Ordinate.IsNumber y2) :
      Reached (Rect.ofCorners x1 y1 x2 y2).toEnvelope
  | change {e e' : Envelope Float} {c : EnvelopeChange Float} (he : Reached e) (hc : Allowed c)
      (h : e.change c = .ok e') : Reached e'

/-- Changes by numbers, by finite amounts, and by boxes that can be reached themselves. -/
inductive Allowed : EnvelopeChange Float → Prop
  | coverPoint {x y : Float} (hx : Ordinate.IsNumber x) (hy : Ordinate.IsNumber y) :
      Allowed (.coverPoint x y)
  | coverPosition {p : Position Float} (hp : p.OfNumbers) : Allowed (.coverPosition p)
  | coverEnvelope {o : Envelope Float} (ho : Reached o) : Allowed (.coverBox o.bounds)
  | coverRect {x1 y1 x2 y2 : Float} (hx1 : Ordinate.IsNumber x1) (hy1 : Ordinate.IsNumber y1)
      (hx2 : Ordinate.IsNumber x2) (hy2 : Ordinate.IsNumber y2) :
      Allowed (.coverBox (Rect.ofCorners x1 y1 x2 y2).bounds)
  | coverScanned {s : Sequence Float} {b : IndexedBox Float} {a : Bounds Float}
      (hs : s.OfNumbers) (hb : IndexedBox.ofSequence s = .ok b) (ha : b.bounds = .ok a) :
      Allowed (.coverBox a)
  | coverPoints {points : List (Float × Float)}
      (hpoints : ∀ p ∈ points, Ordinate.IsNumber p.1 ∧ Ordinate.IsNumber p.2) :
      Allowed (.coverPoints points)
  | expand {dx dy : Float} (hdx : dx.isFinite = true) (hdy : dy.isFinite = true) :
      Allowed (.expand dx dy)
  | expandByDistance {d : Float} (hd : d.isFinite = true) : Allowed (.expandByDistance d)
  | translate {dx dy : Float} (hdx : dx.isFinite = true) (hdy : dy.isFinite = true) :
      Allowed (.translate dx dy)
  | span {x1 x2 y1 y2 : Float} (hx1 : Ordinate.IsNumber x1) (hx2 : Ordinate.IsNumber x2)
      (hy1 : Ordinate.IsNumber y1) (hy2 : Ordinate.IsNumber y2) : Allowed (.span x1 x2 y1 y2)
  | spanPositions {p q : Position Float} (hp : p.OfNumbers) (hq : q.OfNumbers) :
      Allowed (.spanPositions p q)
  | become {o : Envelope Float} (ho : Reached o) : Allowed (.become o)
  | clear : Allowed .clear

end

/-- Building from a position of numbers succeeds and gives a canonical envelope. -/
theorem ofPosition_of_numbers {p : Position Float} (hp : p.OfNumbers) :
    ∃ e, ofPosition p = .ok e ∧ e.Canonical := by
  obtain ⟨x, y, hplane, hx, hy⟩ := hp.plane
  exact ⟨_, bind_eq_ok_iff.mpr ⟨(x, y), hplane, rfl⟩, canonical_ofPoint hx hy⟩

theorem ofPositions_of_numbers {p q : Position Float} (hp : p.OfNumbers) (hq : q.OfNumbers) :
    ∃ e, ofPositions p q = .ok e ∧ e.Canonical := by
  obtain ⟨x1, y1, ⟨hpx, hpy⟩, hx1, hy1⟩ := hp
  obtain ⟨x2, y2, ⟨hqx, hqy⟩, hx2, hy2⟩ := hq
  refine ⟨spanning x1 x2 y1 y2, ?_, canonical_spanning hx1 hx2 hy1 hy2⟩
  rw [ofPositions, hpx, hqx, hpy, hqy]
  rfl

theorem Canonical.expandToIncludePosition {e : Envelope Float} (h : e.Canonical)
    {p : Position Float} (hp : p.OfNumbers) :
    ∃ e', e.expandToIncludePosition p = .ok e' ∧ e'.Canonical := by
  obtain ⟨x, y, hplane, hx, hy⟩ := hp.plane
  exact ⟨_, bind_eq_ok_iff.mpr ⟨(x, y), hplane, rfl⟩, h.expandToInclude hx hy⟩

/-- So does collecting any number of them, none included. -/
theorem collect_of_numbers {ps : List (Position Float)} (hps : ∀ p ∈ ps, p.OfNumbers) :
    ∃ e, collect ps = .ok e ∧ e.Canonical := by
  suffices ∀ e : Envelope Float, e.Canonical →
      ∃ e', ps.foldlM Envelope.expandToIncludePosition e = .ok e' ∧ e'.Canonical from
    this null canonical_null
  induction ps with
  | nil => exact fun e he ↦ ⟨e, rfl, he⟩
  | cons p ps ih =>
    intro e he
    obtain ⟨e', hstep, he'⟩ := he.expandToIncludePosition (hps p List.mem_cons_self)
    obtain ⟨e'', hrest, he''⟩ := ih (fun q hq ↦ hps q (List.mem_cons_of_mem p hq)) e' he'
    exact ⟨e'', bind_eq_ok_iff.mpr ⟨e', hstep, hrest⟩, he''⟩

/-- A rectangle sorts its corners, whichever way they are given. -/
theorem inOrder_rect {x1 y1 x2 y2 : Float} (hx1 : Ordinate.IsNumber x1)
    (hy1 : Ordinate.IsNumber y1) (hx2 : Ordinate.IsNumber x2) (hy2 : Ordinate.IsNumber y2) :
    (Rect.ofCorners x1 y1 x2 y2).bounds.InOrder :=
  ⟨Ordinate.inOrder_le hx1 hx2, Ordinate.inOrder_le hy1 hy2⟩

mutual

/-- **Only canonical envelopes are reached.** -/
theorem Reached.canonical : ∀ {e : Envelope Float}, Reached e → e.Canonical
  | _, .null => canonical_null
  | _, .span hx1 hx2 hy1 hy2 => canonical_spanning hx1 hx2 hy1 hy2
  | _, .position hp he => of_exists_ok (ofPosition_of_numbers hp) he
  | _, .positions hp hq he => of_exists_ok (ofPositions_of_numbers hp hq) he
  | _, .collected hps he => of_exists_ok (collect_of_numbers hps) he
  | _, .rect hx1 hy1 hx2 hy2 => by
    -- the corners were put in order when the rectangle was made, and are once more here
    have hrect := inOrder_rect hx1 hy1 hx2 hy2
    exact canonical_spanning (Ordinate.isNumber_left hrect.x) (Ordinate.isNumber_right hrect.x)
      (Ordinate.isNumber_left hrect.y) (Ordinate.isNumber_right hrect.y)
  | _, .change he hc hchange => of_exists_ok (hc.change he.canonical) hchange

/-- One allowed change goes through and keeps an envelope canonical. -/
theorem Allowed.change : ∀ {c : EnvelopeChange Float}, Allowed c →
    ∀ {e : Envelope Float}, e.Canonical → ∃ e', e.change c = .ok e' ∧ e'.Canonical
  | _, .coverPoint hx hy, _, he => ⟨_, rfl, he.expandToInclude hx hy⟩
  | _, .coverPosition hp, _, he => he.expandToIncludePosition hp
  | _, .coverEnvelope ho, _, he => ⟨_, rfl, he.expandToIncludeBounds ho.canonical.wellFormed⟩
  | _, .coverRect hx1 hy1 hx2 hy2, _, he =>
    ⟨_, rfl, he.expandToIncludeBounds (Or.inr (inOrder_rect hx1 hy1 hx2 hy2))⟩
  | _, .coverScanned hs hb ha, _, he => ⟨_, rfl, he.expandToIncludeBounds (hs.wellFormed hb ha)⟩
  | _, .coverPoints hpoints, _, he => ⟨_, rfl, he.expandToIncludeAll hpoints⟩
  | _, .expand hdx hdy, _, he => ⟨_, rfl, he.expandBy hdx hdy⟩
  | _, .expandByDistance hd, _, he => ⟨_, rfl, he.expandBy hd hd⟩
  | _, .translate hdx hdy, _, he => ⟨_, rfl, he.translate hdx hdy⟩
  | _, .span hx1 hx2 hy1 hy2, _, _ => ⟨_, rfl, canonical_spanning hx1 hx2 hy1 hy2⟩
  | _, .spanPositions hp hq, _, _ => ofPositions_of_numbers hp hq
  | _, .become ho, _, _ => ⟨_, rfl, ho.canonical⟩
  | _, .clear, _, _ => ⟨_, rfl, canonical_null⟩

end

/-! ### Runs of changes -/

/-- A run of allowed changes goes through, and every envelope on the way is canonical. -/
theorem exists_changes {e : Envelope Float} (he : e.Canonical) {cs : List (EnvelopeChange Float)}
    (hcs : ∀ c ∈ cs, Allowed c) :
    ∃ es, e.changes cs = .ok es ∧ es.length = cs.length ∧ ∀ e' ∈ es, e'.Canonical := by
  induction cs generalizing e with
  | nil => exact ⟨[], rfl, rfl, by simp⟩
  | cons c cs ih =>
    obtain ⟨e', hstep, he'⟩ := (hcs c List.mem_cons_self).change he
    obtain ⟨es, hrun, hlen, hes⟩ := ih he' fun d hd ↦ hcs d (List.mem_cons_of_mem c hd)
    refine ⟨e' :: es, ?_, by rw [List.length_cons, List.length_cons, hlen], ?_⟩
    · exact bind_eq_ok_iff.mpr ⟨e', hstep, bind_eq_ok_iff.mpr ⟨es, hrun, rfl⟩⟩
    · exact List.forall_mem_cons.mpr ⟨he', hes⟩

/-- Canonical, spelled out. -/
theorem Canonical.numbers_or_null {e : Envelope Float} (h : e.Canonical) :
    e = .null ∨
      (e.minX.isNaN = false ∧ e.maxX.isNaN = false ∧ e.minY.isNaN = false ∧
        e.maxY.isNaN = false) ∧ e.minX ≤ e.maxX ∧ e.minY ≤ e.maxY := by
  rcases h with rfl | h
  · exact Or.inl rfl
  · refine Or.inr ⟨⟨?_, ?_, ?_, ?_⟩, h.x, h.y⟩
    · exact Binary.isNumber_iff.mp (Ordinate.isNumber_left h.x)
    · exact Binary.isNumber_iff.mp (Ordinate.isNumber_right h.x)
    · exact Binary.isNumber_iff.mp (Ordinate.isNumber_left h.y)
    · exact Binary.isNumber_iff.mp (Ordinate.isNumber_right h.y)

/-- **Every envelope of a run is the null envelope or four numbers in order,** and the null test
says which. -/
theorem changes_canonical {e : Envelope Float} (he : Reached e)
    {cs : List (EnvelopeChange Float)} (hcs : ∀ c ∈ cs, Allowed c) :
    ∃ es, e.changes cs = .ok es ∧ es.length = cs.length ∧
      ∀ e' ∈ e :: es,
        (e' = .null ∨
          (e'.minX.isNaN = false ∧ e'.maxX.isNaN = false ∧ e'.minY.isNaN = false ∧
            e'.maxY.isNaN = false) ∧ e'.minX ≤ e'.maxX ∧ e'.minY ≤ e'.maxY) ∧
        (e'.isNull = true ↔ e' = .null) := by
  obtain ⟨es, hrun, hlen, hes⟩ := exists_changes he.canonical hcs
  refine ⟨es, hrun, hlen, fun e' he' ↦ ?_⟩
  have hcanonical : e'.Canonical := by
    rcases List.mem_cons.mp he' with rfl | hmem
    · exact he.canonical
    · exact hes e' hmem
  exact ⟨hcanonical.numbers_or_null, isNull_iff_of_canonical hcanonical⟩

/-- Grown to infinity along x and then shrunk to less than nothing along y alone, a box is null. -/
theorem changes_canonical_shrunk_along_y :
    Reached (.spanning 2.0 0.0 0.0 1.0) ∧
      ∃ es, (spanning 2.0 0.0 0.0 1.0).changes
          [.coverPoint Ordinate.infinity 0.5, .expand 1.0 (-2.0)] = .ok es ∧
        es = [⟨0.0, Ordinate.infinity, 0.0, 1.0⟩, .null] ∧
        ∀ e' ∈ spanning 2.0 0.0 0.0 1.0 :: es, e'.isNull = true ↔ e' = .null := by
  have hstart : Reached (.spanning 2.0 0.0 0.0 1.0) :=
    .span (by decide) (by decide) (by decide) (by decide)
  have hallowed : ∀ c ∈ [EnvelopeChange.coverPoint Ordinate.infinity (0.5 : Float),
      .expand 1.0 (-2.0)], Allowed c := by
    intro c hc
    rcases List.mem_pair.mp hc with rfl | rfl
    · exact .coverPoint (by decide) (by decide)
    · exact .expand (by decide) (by decide)
  obtain ⟨es, hrun, -, hes⟩ := changes_canonical hstart hallowed
  refine ⟨hstart, es, hrun, ?_, fun e' he' ↦ (hes e' he').2⟩
  have hvalue : (spanning 2.0 0.0 0.0 1.0).changes
      [.coverPoint Ordinate.infinity 0.5, .expand 1.0 (-2.0)] =
        .ok [⟨0.0, Ordinate.infinity, 0.0, 1.0⟩, (null : Envelope Float)] := by
    rfl
  exact Except.ok.inj (hrun.symm.trans hvalue)

end Envelope

end Geospatial
