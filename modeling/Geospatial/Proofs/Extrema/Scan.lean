import Geospatial.Extrema
import Geospatial.Proofs.Envelope.Growth
import Geospatial.Proofs.Reading

/-!
# What a scan finds

A scan keeps the extreme values of the points seen so far and where it found them; an envelope that
grows point by point keeps the values alone. The two run side by side: `Extremes.Tracks` ties the
scan to the envelope and to the points, `tracks_extend` keeps it for one point and, with the
induction of `extendFrom_of_extend`, `tracks_scan` for a list.

**The envelope never falls back to null.** It is asked at every point whether it is null, and the
scan is not. What carries the argument is `Spread`: the bounds on an axis are one and the same value
or strictly in order, undefined values and the two zeros included, so the answer is always no and
putting the bounds in order leaves them in place.
-/

namespace Geospatial

namespace Ordinate

variable {α : Type} [Ordinate α]

/-- Two bounds that have grown apart from one value: the same, or strictly in order. -/
def Spread (lo hi : α) : Prop :=
  lo = hi ∨ lo < hi

variable [LawfulOrdinate α] {lo hi : α}

theorem Spread.not_lt (h : Spread lo hi) : ¬hi < lo := by
  rcases h with rfl | hlt
  · exact lt_irrefl
  · exact fun hgt ↦ lt_irrefl (lt_trans hlt hgt)

/-- Bounds that stand in order stay where they are. -/
theorem Spread.inOrder (h : Spread lo hi) : inOrder lo hi = (lo, hi) := by
  rw [Geospatial.inOrder]
  rcases h with rfl | hlt
  · exact if_neg lt_irrefl
  · exact if_pos hlt

/-- A further value leaves the bounds spread, whichever of them it moves. -/
theorem Spread.extend (h : Spread lo hi) (x : α) : Spread (lesser x lo) (greater x hi) := by
  rw [lesser, greater]
  split
  next hlo =>
    split
    -- the value goes beyond both bounds and becomes both of them
    next => exact Or.inl rfl
    next =>
      rcases h with rfl | hlt
      · exact Or.inr hlo
      · exact Or.inr (lt_trans hlo hlt)
  next =>
    split
    next hhi =>
      rcases h with rfl | hlt
      · exact Or.inr hhi
      · exact Or.inr (lt_trans hlt hhi)
    next => exact h

end Ordinate

/-- The value is a bound, and it is found among the values at the index. -/
structure Extreme.Realizes {α : Type} (v : Extreme α) (values : List α) (bound : α) : Prop where
  value : v.value = bound
  found : values[v.index]? = some bound

/-- Taking one more value into account, where `c` says whether it goes beyond the bound. -/
theorem Extreme.realizes_extend {α : Type} {v : Extreme α} {values : List α} {bound : α} (x : α)
    (c : Prop) [Decidable c] (h : v.Realizes values bound) :
    Extreme.Realizes (if c then ⟨values.length, x⟩ else v) (values ++ [x])
      (if c then x else bound) := by
  split
  · exact ⟨rfl, by rw [List.getElem?_concat_length]⟩
  · refine ⟨h.value, ?_⟩
    have hlt : v.index < values.length := (List.getElem?_eq_some_iff.mp h.found).1
    rw [List.getElem?_append_left hlt, h.found]

namespace Envelope

variable {α : Type} [Ordinate α]

/-- The bounds on both axes have grown apart from one value each. -/
structure Spread (e : Envelope α) : Prop where
  x : Ordinate.Spread e.minX e.maxX
  y : Ordinate.Spread e.minY e.maxY

variable {e : Envelope α}

/-- A point is spread, with or without numbers. -/
theorem spread_ofPoint (x y : α) : (ofPoint x y).Spread :=
  ⟨Or.inl rfl, Or.inl rfl⟩

variable [LawfulOrdinate α]

theorem Spread.isNull (h : e.Spread) : e.isNull = false :=
  decide_eq_false h.x.not_lt

/-- Growing keeps an envelope spread. -/
theorem Spread.expandToInclude (h : e.Spread) (x y : α) : (e.expandToInclude x y).Spread := by
  rw [expandToInclude_of_not_null h.isNull]
  exact ⟨h.x.extend x, h.y.extend y⟩

/-- Spanning the bounds of a spread envelope gives it back. -/
theorem Spread.spanning (h : e.Spread) : spanning e.minX e.maxX e.minY e.maxY = e := by
  rw [Envelope.spanning, h.x.inOrder, h.y.inOrder]

end Envelope

namespace Extremes

variable {α : Type} [Ordinate α] {s : Extremes α} {points : List (α × α)} {e : Envelope α}

/-- **The scan and the envelope agree:** each extreme value is the envelope's bound and stands among
the points at its index, and the envelope is not null. -/
structure Tracks (s : Extremes α) (points : List (α × α)) (e : Envelope α) : Prop where
  minX : s.minX.Realizes (points.map Prod.fst) e.minX
  maxX : s.maxX.Realizes (points.map Prod.fst) e.maxX
  minY : s.minY.Realizes (points.map Prod.snd) e.minY
  maxY : s.maxY.Realizes (points.map Prod.snd) e.maxY
  spread : e.Spread

/-- **What one more point keeps, a whole list keeps,** by induction on it; the points seen so far
grow at their end. -/
theorem extendFrom_of_extend (P : Extremes α → List (α × α) → Prop)
    (hstep : ∀ s points p, P s points → P (s.extend points.length p) (points ++ [p]))
    (h : P s points) (rest : List (α × α)) :
    P (s.extendFrom points.length rest) (points ++ rest) := by
  induction rest generalizing s points with
  | nil =>
    rw [List.append_nil]
    exact h
  | cons p rest ih =>
    have hnext := ih (hstep s points p h)
    rw [List.length_append, List.length_singleton, List.append_assoc] at hnext
    exact hnext

theorem tracks_ofPoint (p : α × α) : (ofPoint 0 p).Tracks [p] (.ofPoint p.1 p.2) :=
  ⟨⟨rfl, rfl⟩, ⟨rfl, rfl⟩, ⟨rfl, rfl⟩, ⟨rfl, rfl⟩, Envelope.spread_ofPoint ..⟩

variable [LawfulOrdinate α]

/-- The scan and the envelope go on together, whatever the next point is. -/
theorem tracks_extend (h : s.Tracks points e) (p : α × α) :
    (s.extend points.length p).Tracks (points ++ [p]) (e.expandToInclude p.1 p.2) := by
  have hx : points.length = (points.map Prod.fst).length := (List.length_map ..).symm
  have hy : points.length = (points.map Prod.snd).length := (List.length_map ..).symm
  have hspread := h.spread.expandToInclude p.1 p.2
  rw [Envelope.expandToInclude_of_not_null h.spread.isNull] at hspread ⊢
  -- each extreme moves by the very comparison that moves its bound
  refine ⟨?_, ?_, ?_, ?_, hspread⟩
  · rw [extend, h.minX.value, List.map_append, hx]
    exact Extreme.realizes_extend _ _ h.minX
  · rw [extend, h.maxX.value, List.map_append, hx]
    exact Extreme.realizes_extend _ _ h.maxX
  · rw [extend, h.minY.value, List.map_append, hy]
    exact Extreme.realizes_extend _ _ h.minY
  · rw [extend, h.maxY.value, List.map_append, hy]
    exact Extreme.realizes_extend _ _ h.maxY

/-- A scan and an envelope that start together stay together: the rest of a list keeps what one
point keeps. -/
theorem tracks_scan (he : e.isNull = true) (p : α × α) (rest : List (α × α)) :
    ((ofPoint 0 p).extendFrom 1 rest).Tracks (p :: rest) (e.expandToIncludeAll (p :: rest)) := by
  have hfirst : e.expandToIncludeAll [p] = .ofPoint p.1 p.2 := if_pos he
  have hstart : (ofPoint 0 p).Tracks [p] (e.expandToIncludeAll [p]) := by
    rw [hfirst]
    exact tracks_ofPoint p
  refine extendFrom_of_extend
    (fun s points ↦ s.Tracks points (e.expandToIncludeAll points)) ?_ hstart rest
  intro s points q h
  rw [Envelope.expandToIncludeAll_append]
  exact tracks_extend h q

end Extremes

/-! ### The box of a scan -/

section Values

variable {α : Type} {s : Sequence α} {l : List (α × α)} {i : Nat} {v : α}

/-- What stands among the listed values is what the sequence reads at the index. -/
theorem Sequence.x_of_found (hl : s.points = .ok l) (h : (l.map Prod.fst)[i]? = some v) :
    s.x i = .ok v := by
  obtain ⟨hi, rfl⟩ := List.getElem?_eq_some_iff.mp h
  rw [List.length_map] at hi
  rw [List.getElem_map]
  exact ((points_eq_ok_iff.mp hl).2 i hi).1

/-- The second ordinates are read from the points as well. -/
theorem Sequence.y_of_found (hl : s.points = .ok l) (h : (l.map Prod.snd)[i]? = some v) :
    s.y i = .ok v := by
  obtain ⟨hi, rfl⟩ := List.getElem?_eq_some_iff.mp h
  rw [List.length_map] at hi
  rw [List.getElem_map]
  exact ((points_eq_ok_iff.mp hl).2 i hi).2

end Values

/-- The bounds of a box stand among the ordinates of the points, each at its index. -/
structure Extrema.Finds {α : Type} (ix : Extrema) (points : List (α × α)) (a : Bounds α) :
    Prop where
  notNull : a.isNull = false
  minX : (points.map Prod.fst)[ix.minX]? = some a.minX
  maxX : (points.map Prod.fst)[ix.maxX]? = some a.maxX
  minY : (points.map Prod.snd)[ix.minY]? = some a.minY
  maxY : (points.map Prod.snd)[ix.maxY]? = some a.maxY

namespace IndexedBox

variable {α : Type} [Ordinate α] {s : Sequence α} {l : List (α × α)}

/-- Where all points can be read, the box keeps the indices that a scan of them finds. -/
theorem ofSequence_of_points (hl : s.points = .ok l) :
    ofSequence s = .ok ⟨s, Extrema.scan l⟩ := by
  rw [ofSequence, hl]
  rfl

/-- A box that is read through indices has the bounds that stand there. -/
theorem bounds_attach {ix : Extrema} {a : Bounds α} (hl : s.points = .ok l) (h : ix.Finds l a) :
    (attach ix s).bounds = .ok a := by
  obtain ⟨isNull, minX, maxX, minY, maxY⟩ := a
  obtain rfl : isNull = false := h.notNull
  have hminX : s.x ix.minX = .ok minX := Sequence.x_of_found hl h.minX
  have hmaxX : s.x ix.maxX = .ok maxX := Sequence.x_of_found hl h.maxX
  have hminY : s.y ix.minY = .ok minY := Sequence.y_of_found hl h.minY
  have hmaxY : s.y ix.maxY = .ok maxY := Sequence.y_of_found hl h.maxY
  simp only [bounds, IndexedBox.minX, IndexedBox.maxX, IndexedBox.minY, IndexedBox.maxY, read,
    attach, hminX, hmaxX, hminY, hmaxY]
  rfl

/-- A box that is read through indices that track an envelope has that envelope's bounds. -/
theorem bounds_of_tracks {ext : Extremes α} {e : Envelope α} (hl : s.points = .ok l)
    (h : ext.Tracks l e) :
    (⟨s, some ext.indices⟩ : IndexedBox α).bounds =
      .ok ⟨false, e.minX, e.maxX, e.minY, e.maxY⟩ :=
  bounds_attach hl ⟨rfl, h.minX.found, h.maxX.found, h.minY.found, h.maxY.found⟩

variable [LawfulOrdinate α]

/-- **The scan of a list that is not empty finds the bounds of the envelope grown from null,** and
that envelope is spread. -/
theorem bounds_scan (hl : s.points = .ok l) (hne : l ≠ []) {e : Envelope α}
    (he : e.isNull = true) :
    (e.expandToIncludeAll l).Spread ∧
      (⟨s, Extrema.scan l⟩ : IndexedBox α).bounds = .ok (e.expandToIncludeAll l).bounds := by
  obtain ⟨p, rest, rfl⟩ := List.exists_cons_of_ne_nil hne
  have htracks := Extremes.tracks_scan he p rest
  refine ⟨htracks.spread, ?_⟩
  have hbounds := bounds_of_tracks hl htracks
  rw [← htracks.spread.isNull] at hbounds
  exact hbounds

end IndexedBox

end Geospatial
