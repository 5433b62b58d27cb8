import Geospatial.Proofs.Extrema.FirstExtremum

/-!
# What a box of points covers

A box that is grown from null, collected or found by a scan takes over its first point as it comes.
If that point has numbers for both ordinates, the box covers every listed point of numbers, and a
value that is none is passed over wherever else it stands. If it has not, some bound is undefined
from the start and stays so, and nothing is ever covered: `coversAllOrNone_expandToIncludeAll`.

**Only the first point is taken unseen.** Beside bounds that are there already an undefined value
fails every comparison and changes nothing; the null box has none to compare with.
-/

namespace Geospatial

open Ordinate (IsNumber)

section

variable {α : Type} [Ordinate α]

/-- The list is empty or begins with a point of numbers. -/
def LedByNumbers (points : List (α × α)) : Prop :=
  ∀ p ∈ points.head?, IsNumber p.1 ∧ IsNumber p.2

/-- Every listed point of numbers is covered. -/
def Bounds.CoversNumbers (a : Bounds α) (points : List (α × α)) : Prop :=
  ∀ p ∈ points, IsNumber p.1 → IsNumber p.2 → a.coversPoint p.1 p.2 = true

instance (points : List (α × α)) : Decidable (LedByNumbers points) :=
  inferInstanceAs (Decidable (∀ p ∈ points.head?, _))

instance (a : Bounds α) (points : List (α × α)) : Decidable (a.CoversNumbers points) :=
  inferInstanceAs (Decidable (∀ p ∈ points, _))

/-- The first point decides: with numbers in it every listed point of numbers is covered, and
otherwise no point at all. -/
structure Bounds.CoversAllOrNone (a : Bounds α) (points : List (α × α)) : Prop where
  all : LedByNumbers points → a.CoversNumbers points
  none : ¬LedByNumbers points → ∀ x y, a.coversPoint x y = false

/-- The first ordinates of points of numbers are numbers. -/
theorem isNumber_fst {points : List (α × α)} (h : ∀ p ∈ points, IsNumber p.1 ∧ IsNumber p.2) :
    ∀ x ∈ points.map Prod.fst, IsNumber x :=
  List.forall_mem_map.mpr fun p hp ↦ (h p hp).1

/-- And so are the second ones. -/
theorem isNumber_snd {points : List (α × α)} (h : ∀ p ∈ points, IsNumber p.1 ∧ IsNumber p.2) :
    ∀ y ∈ points.map Prod.snd, IsNumber y :=
  List.forall_mem_map.mpr fun p hp ↦ (h p hp).2

namespace Side

variable {side : Side} {values values' : List α} {bound bound' u w : α}

/-- The bound is attained among the values. -/
def IsExtreme (side : Side) (values : List α) (bound : α) : Prop :=
  ∃ i, side.Attains values ⟨i, bound⟩

theorem IsExtreme.reaches (h : side.IsExtreme values bound) (hw : w ∈ values)
    (hnumber : IsNumber w) : side.Reaches bound w := by
  obtain ⟨_, h⟩ := h
  exact h.reaches w hw hnumber

/-- More values reach further. -/
theorem IsExtreme.reaches_of_subset (h : side.IsExtreme values bound)
    (h' : side.IsExtreme values' bound') (hsub : values' ⊆ values) :
    side.Reaches bound bound' := by
  obtain ⟨_, h'⟩ := h'
  exact h.reaches (hsub (List.mem_of_getElem? h'.found)) h'.isNumber

/-- Two extreme values of one side are equal. -/
theorem IsExtreme.beq [LawfulOrdinate α] (h : side.IsExtreme values bound)
    (h' : side.IsExtreme values bound') : (bound == bound') = true := by
  have hreaches := h.reaches_of_subset h' (List.Subset.refl values)
  have hreaches' := h'.reaches_of_subset h (List.Subset.refl values)
  rw [LawfulOrdinate.beq_iff_le_ge]
  cases side with
  | lower => exact ⟨hreaches, hreaches'⟩
  | upper => exact ⟨hreaches', hreaches⟩

/-- A value that leads the others is their extreme one, if the first is a number. -/
theorem Leads.isExtreme {v : Extreme α} (h : side.Leads values v) (hv : v.Realizes values bound)
    (hu : values[0]? = some u) (hnumber : IsNumber u) : side.IsExtreme values bound := by
  rw [← hv.value]
  exact ⟨v.index, h.attains hu hnumber⟩

end Side

namespace Envelope

variable {e e' : Envelope α} {points points' : List (α × α)}

/-- The envelope is not null, and each bound is attained among the ordinates of the points. -/
structure AttainedBy (e : Envelope α) (points : List (α × α)) : Prop where
  notNull : e.isNull = false
  minX : Side.lower.IsExtreme (points.map Prod.fst) e.minX
  maxX : Side.upper.IsExtreme (points.map Prod.fst) e.maxX
  minY : Side.lower.IsExtreme (points.map Prod.snd) e.minY
  maxY : Side.upper.IsExtreme (points.map Prod.snd) e.maxY

/-- On each axis every number among the ordinates lies between the bounds, whichever points the two
come from. -/
theorem AttainedBy.coversPoint (h : e.AttainedBy points) {x y : α} (hx : x ∈ points.map Prod.fst)
    (hy : y ∈ points.map Prod.snd) (hnumberX : IsNumber x) (hnumberY : IsNumber y) :
    e.bounds.coversPoint x y = true :=
  Bounds.coversPoint_iff.mpr ⟨h.notNull, ⟨h.minX.reaches hx hnumberX, h.maxX.reaches hx hnumberX⟩,
    h.minY.reaches hy hnumberY, h.maxY.reaches hy hnumberY⟩

theorem AttainedBy.coversNumbers (h : e.AttainedBy points) : e.bounds.CoversNumbers points := by
  intro p hp hx hy
  exact h.coversPoint (List.mem_map_of_mem hp) (List.mem_map_of_mem hp) hx hy

/-- More points make a larger box. -/
theorem AttainedBy.covers (h : e.AttainedBy points) (h' : e'.AttainedBy points')
    (hsub : points' ⊆ points) : e.bounds.covers e'.bounds = true := by
  have hx := List.map_subset Prod.fst hsub
  have hy := List.map_subset Prod.snd hsub
  exact Bounds.covers_iff.mpr ⟨⟨h.notNull, h'.notNull⟩,
    ⟨h.minX.reaches_of_subset h'.minX hx, h.maxX.reaches_of_subset h'.maxX hx⟩,
    h.minY.reaches_of_subset h'.minY hy, h.maxY.reaches_of_subset h'.maxY hy⟩

variable [LawfulOrdinate α]

/-- Behind a point of numbers every bound is attained. -/
theorem attainedBy_expandToIncludeAll (he : e.isNull = true) (hne : points ≠ [])
    (hled : LedByNumbers points) : (e.expandToIncludeAll points).AttainedBy points := by
  obtain ⟨p, rest, rfl⟩ := List.exists_cons_of_ne_nil hne
  obtain ⟨hx, hy⟩ := hled p rfl
  -- the scan keeps the values that the envelope keeps, and its searches know what they found
  have htracks := Extremes.tracks_scan he p rest
  have hlead := Extremes.lead_scan p rest
  exact ⟨htracks.spread.isNull, hlead.minX.isExtreme htracks.minX rfl hx,
    hlead.maxX.isExtreme htracks.maxX rfl hx, hlead.minY.isExtreme htracks.minY rfl hy,
    hlead.maxY.isExtreme htracks.maxY rfl hy⟩

/-- Behind any other first point some bound is no number. -/
theorem not_isNumber_expandToIncludeAll (he : e.isNull = true) (hnot : ¬LedByNumbers points) :
    ¬IsNumber (e.expandToIncludeAll points).minX ∨
      ¬IsNumber (e.expandToIncludeAll points).minY := by
  cases points with
  | nil => exact absurd nofun hnot
  | cons p rest =>
    have htracks := Extremes.tracks_scan he p rest
    have hlead := Extremes.lead_scan p rest
    -- the bounds are the values that the scan found, and it found the first ones
    rw [← htracks.minX.value, ← htracks.minY.value]
    by_cases hx : IsNumber p.1
    · refine Or.inr (hlead.minY.not_isNumber rfl fun hy ↦ hnot fun q hq ↦ ?_)
      obtain rfl := Option.some.inj hq
      exact ⟨hx, hy⟩
    · exact Or.inl (hlead.minX.not_isNumber rfl hx)

/-- **All or none,** on whichever null envelope the growth begins. -/
theorem coversAllOrNone_expandToIncludeAll (he : e.isNull = true) (points : List (α × α)) :
    (e.expandToIncludeAll points).bounds.CoversAllOrNone points := by
  constructor
  · intro hled
    rcases List.eq_nil_or_concat points with rfl | ⟨init, p, rfl⟩
    · exact nofun
    · exact (attainedBy_expandToIncludeAll he (by simp) hled).coversNumbers
  · intro hnot x y
    rw [← Bool.not_eq_true, Bounds.coversPoint_iff]
    rintro ⟨-, ⟨hx, -⟩, hy, -⟩
    rcases not_isNumber_expandToIncludeAll he hnot with h | h
    · exact h (Ordinate.isNumber_left hx)
    · exact h (Ordinate.isNumber_left hy)

/-- Behind points of numbers the box depends on which points are listed, not on their places. -/
theorem equals_expandToIncludeAll (he : e.isNull = true) (hled : LedByNumbers points)
    (hled' : LedByNumbers points') (hsame : ∀ p, p ∈ points ↔ p ∈ points') :
    (e.expandToIncludeAll points).bounds.equals (e.expandToIncludeAll points').bounds = true := by
  rcases eq_or_ne points [] with rfl | hne
  · obtain rfl : points' = [] :=
      List.eq_nil_iff_forall_not_mem.mpr fun p hp ↦ nomatch (hsame p).mpr hp
    rw [Bounds.equals_of_isNull_left he]
    exact he
  -- with the same points each of the boxes covers the other
  · have hne' : points' ≠ [] := by
      rintro rfl
      exact hne (List.eq_nil_iff_forall_not_mem.mpr fun p hp ↦ nomatch (hsame p).mp hp)
    have h := attainedBy_expandToIncludeAll he hne hled
    have h' := attainedBy_expandToIncludeAll he hne' hled'
    exact Bounds.equals_of_covers (h.covers h' fun p ↦ (hsame p).mpr)
      (h'.covers h fun p ↦ (hsame p).mp)

end Envelope

end

/-- A box found by a scan covers what the grown one covers. -/
theorem IndexedBox.Refines.coversAllOrNone {s : Sequence Float} {e : Envelope Float}
    {b : IndexedBox Float} {a : Bounds Float} (h : Refines s e b a) {points : List (Float × Float)}
    (he : e.bounds.CoversAllOrNone points) : a.CoversAllOrNone points where
  all hled p hp hx hy := by
    rw [h.interchangeable.coversPoint]
    exact he.all hled p hp hx hy
  none hnot x y := by
    rw [h.interchangeable.coversPoint]
    exact he.none hnot x y

/-- **A box of points covers all that are numbers or nothing,** as the first point decides. That
holds of a null envelope grown to cover a sequence, of the box that a scan of it finds and of the
envelope that collects positions; behind a point of numbers the places of the others do not
matter. -/
theorem grown_covers_all_or_none (l : List (Float × Float)) (e : Envelope Float)
    (he : e.isNull = true) :
    (∀ s : Sequence Float, s.points = .ok l →
      (∃ e', s.expandEnvelope e = .ok e' ∧ e'.bounds.CoversAllOrNone l) ∧
      ∃ b a, IndexedBox.ofSequence s = .ok b ∧ b.bounds = .ok a ∧ a.CoversAllOrNone l) ∧
    (∀ ps : List (Position Float), ps.mapM Position.plane = .ok l →
      ∃ e', Envelope.collect ps = .ok e' ∧ e'.bounds.CoversAllOrNone l) ∧
    (∀ (σ : Type) [Storage σ] (b : PackedSequence σ), b.points = l →
      (b.expandEnvelope e).bounds.CoversAllOrNone l) ∧
    ∀ l' : List (Float × Float), LedByNumbers l → LedByNumbers l' → (∀ p, p ∈ l ↔ p ∈ l') →
      (e.expandToIncludeAll l).bounds.equals (e.expandToIncludeAll l').bounds = true := by
  have hgrown := Envelope.coversAllOrNone_expandToIncludeAll he l
  have hofPoints := Envelope.coversAllOrNone_expandToIncludeAll Envelope.isNull_null l
  refine ⟨fun s hl ↦ ⟨⟨_, Sequence.expandEnvelope_of_points hl e, hgrown⟩, ?_⟩, fun ps hps ↦ ?_, ?_,
    fun l' hled hled' ↦ Envelope.equals_expandToIncludeAll he hled hled'⟩
  · obtain ⟨b, a, hrefines⟩ := IndexedBox.exists_refines hl
    exact ⟨b, a, hrefines.scanned, hrefines.read, hrefines.coversAllOrNone hofPoints⟩
  · exact ⟨_, Envelope.collect_of_planes hps, hofPoints⟩
  · rintro σ _ b rfl
    exact hgrown

/-- A coordinate without any number between two others: the box of the scan covers both, and the one
that is grown from an inverted envelope does. -/
theorem grown_covers_all_or_none_gap_inside :
    ∃ s : Sequence Float, s.Readable ∧ s.size = 3 ∧
      ∃ l, s.points = .ok l ∧
        l = [(1.0, 2.0), (Ordinate.undefined, Ordinate.undefined), (3.0, -0.0)] ∧
        (∃ e', s.expandEnvelope ⟨7.0, 3.0, Ordinate.undefined, 0.0⟩ = .ok e' ∧
          e'.bounds.CoversNumbers l ∧ e'.bounds.coversPoint 3.0 0.0 = true) ∧
        ∃ b a, IndexedBox.ofSequence s = .ok b ∧ b.bounds = .ok a ∧ a.CoversNumbers l := by
  let s : Sequence Float := .ofCoordinates .xy
    [{ x := 1.0, y := 2.0 }, { x := Ordinate.undefined, y := Ordinate.undefined },
      { x := 3.0, y := -0.0 }]
  have hs : s.Readable := Sequence.readable_ofCoordinates .xy _
  have hl : s.points = .ok
      [(1.0, 2.0), (Ordinate.undefined, Ordinate.undefined), (3.0, -0.0)] := by
    rfl
  have hnull : (⟨7.0, 3.0, Ordinate.undefined, 0.0⟩ : Envelope Float).isNull = true := by decide
  obtain ⟨⟨e', he', hcovers'⟩, b, a, hb, ha, hcovers⟩ :=
    (grown_covers_all_or_none _ _ hnull).1 s hl
  have hvalue : s.expandEnvelope ⟨7.0, 3.0, Ordinate.undefined, 0.0⟩ =
      .ok ⟨1.0, 3.0, -0.0, 2.0⟩ := by
    rfl
  obtain rfl := Except.ok.inj (he'.symm.trans hvalue)
  exact ⟨s, hs, rfl, _, hl, rfl, ⟨_, he', hcovers'.all (by decide), by decide⟩, b, a, hb, ha,
    hcovers.all (by decide)⟩

/-- The same coordinate in front of another one: none of the three boxes covers the other one. -/
theorem not_coversNumbers_first_missing :
    ∃ (s : Sequence Float) (l : List (Float × Float)) (e : Envelope Float) (b : IndexedBox Float)
      (a : Bounds Float),
      s = .ofCoordinates .xy [{ x := Ordinate.undefined, y := Ordinate.undefined },
        { x := 1.0, y := 2.0 }] ∧
      s.points = .ok l ∧
      (s.expandEnvelope .null = .ok e ∧ ¬e.bounds.CoversNumbers l) ∧
      Envelope.collect [.pair .tuple (Ordinate.undefined : Float) Ordinate.undefined,
        .pair .tuple 1.0 2.0] = .ok e ∧
      (IndexedBox.ofSequence s = .ok b ∧ b.bounds = .ok a ∧ ¬a.CoversNumbers l) ∧
      e.bounds.coversPoint 1.0 2.0 = false :=
  ⟨_, _, _, _, _, rfl, rfl, ⟨rfl, by decide⟩, rfl, ⟨rfl, rfl, by decide⟩, by decide⟩

end Geospatial
