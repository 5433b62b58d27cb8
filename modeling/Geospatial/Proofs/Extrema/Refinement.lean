import Geospatial.Proofs.Binary.Comparison
import Geospatial.Proofs.Bounds.Agreement
import Geospatial.Proofs.Extrema.Scan
import Geospatial.Proofs.Packed.Reading

/-!
# A scanned box refines a grown envelope

A box over a sequence can be found by scanning for the extrema and reading the bounds through their
indices, or by growing an envelope from null, point by point. `ofSequence_refines_growth` says that
nobody can tell the two apart: not by a bound, bit for bit, nor by any question put to the box.

It holds of all doubles. A first coordinate that is not a number keeps its place as a bound, a later
one never takes one over, and of equal bounds the first stays, be it the negative or the positive
zero; all of that is in `IndexedBox.bounds_scan`, and what is added here is the empty sequence and
the three ways to grow.
-/

namespace Geospatial

/-! ### Three ways to grow -/

namespace Envelope

variable {α : Type} [Ordinate α]

/-- Positions that can be read are added one after the other, without failing on the way. -/
theorem foldlM_expandToIncludePosition {ps : List (Position α)} {l : List (α × α)}
    (h : ps.mapM Position.plane = .ok l) (e : Envelope α) :
    ps.foldlM expandToIncludePosition e = .ok (e.expandToIncludeAll l) := by
  have hread := mapM_eq_ok_iff.mp h
  clear h
  induction hread generalizing e with
  | nil => rfl
  | @cons p xy ps l hp _ ih =>
    have hstep : e.expandToIncludePosition p = .ok (e.expandToInclude xy.1 xy.2) := by
      rw [expandToIncludePosition, hp]
      rfl
    rw [List.foldlM_cons, hstep]
    exact ih _

/-- Collecting positions grows the null envelope by what they read as. -/
theorem collect_of_planes {ps : List (Position α)} {l : List (α × α)}
    (h : ps.mapM Position.plane = .ok l) : collect ps = .ok (null.expandToIncludeAll l) :=
  foldlM_expandToIncludePosition h null

end Envelope

/-- A sequence whose points can be read grows an envelope by just those. -/
theorem Sequence.expandEnvelope_of_points {α : Type} [Ordinate α] {s : Sequence α}
    {l : List (α × α)} (hl : s.points = .ok l) (e : Envelope α) :
    s.expandEnvelope e = .ok (e.expandToIncludeAll l) := by
  rw [expandEnvelope, hl]
  rfl

namespace PackedSequence

variable {σ : Type} [Storage σ] (b : PackedSequence σ)

/-- A packed sequence keeps its word. -/
theorem readable_toSequence : b.toSequence.Readable := by
  intro i hi
  exact ⟨_, _, b.ordinate_of_lt hi b.layout.stride_pos, b.ordinate_of_lt hi b.layout.two_le_stride⟩

/-- Held as a sequence, a buffer grows an envelope as it does by itself. -/
theorem expandEnvelope_toSequence (e : Envelope Float) :
    b.toSequence.expandEnvelope e = .ok (b.expandEnvelope e) :=
  Sequence.expandEnvelope_of_points b.points_toSequence e

/-- The coordinates lie where the leading pairs of the run say. -/
theorem map_plane_coordinates : b.coordinates.map (fun c ↦ (c.x, c.y)) = b.points := by
  refine List.ext_getElem ?_ fun i hi hi' ↦ ?_
  · rw [List.length_map, length_coordinates, length_points]
  · rw [List.length_map] at hi
    have hread : b.pointAnew i = .ok b.coordinates[i] := by
      have h := b.getElem?_coordinates i
      rw [List.getElem?_eq_getElem hi] at h
      cases hp : b.pointAnew i with
      | error v => rw [hp] at h; cases h
      | ok c => rw [hp] at h; rw [Option.some.inj h]
    have hstored := b.stores_of_pointAnew hread
    obtain ⟨hx, hy⟩ := Sequence.point_eq_ok_iff.mp (b.point_toSequence hi')
    rw [List.getElem_map]
    exact Prod.ext (Except.ok.inj (hstored.x.symm.trans hx))
      (Except.ok.inj (hstored.y.symm.trans hy))

theorem mapM_plane_coordinates :
    (b.coordinates.map Position.coordinate).mapM Position.plane = .ok b.points := by
  rw [← b.map_plane_coordinates, mapM_eq_ok_iff, List.forall₂_map_left_iff,
    List.forall₂_map_right_iff, List.forall₂_same]
  exact fun c _ ↦ Position.plane_coordinate c

end PackedSequence

/-! ### Refinement -/

/-- Bounds that are spread are sorted already, so that converting them changes nothing. -/
theorem Envelope.Spread.toEnvelope {α : Type} [Ordinate α] [LawfulOrdinate α] {e : Envelope α}
    (h : e.Spread) : e.bounds.toEnvelope = e := by
  rw [Bounds.toEnvelope, bounds_isNull, h.isNull]
  exact h.spanning

namespace IndexedBox

/-- Scanning the sequence gives a box that cannot be told from the envelope. -/
structure Refines (s : Sequence Float) (e : Envelope Float) (b : IndexedBox Float)
    (a : Bounds Float) : Prop where
  scanned : ofSequence s = .ok b
  read : b.bounds = .ok a
  isNull_iff : a.isNull = true ↔ s.size = 0
  /-- Where there are bounds at all, they are the same four values. -/
  sameBounds : s.size ≠ 0 → a = e.bounds
  toEnvelope : a.toEnvelope = e
  interchangeable : a.Interchangeable e.bounds

/-- Where the points can be read, both ways of enveloping succeed. -/
theorem exists_refines {s : Sequence Float} {l : List (Float × Float)} (hl : s.points = .ok l) :
    ∃ b a, Refines s (Envelope.null.expandToIncludeAll l) b a := by
  have hsize : l.length = s.size := (Sequence.points_eq_ok_iff.mp hl).1
  rcases List.eq_nil_or_concat l with rfl | hcons
  · -- no point: both boxes are null, though their bounds differ
    have hnull : (Envelope.null.expandToIncludeAll ([] : List (Float × Float))).isNull = true :=
      Envelope.isNull_null
    refine ⟨_, _, ofSequence_of_points hl, rfl, iff_of_true rfl hsize.symm, ?_, rfl, ?_⟩
    · exact fun h ↦ absurd hsize.symm h
    · exact Bounds.interchangeable_of_isNull rfl hnull
  · have hne : l ≠ [] := by
      obtain ⟨l', p, rfl⟩ := hcons
      simp
    obtain ⟨hspread, hread⟩ := bounds_scan hl hne Envelope.isNull_null
    have hsome : s.size ≠ 0 := by
      rw [← hsize]
      exact fun h ↦ hne (List.length_eq_zero_iff.mp h)
    have hnot : ¬(Envelope.null.expandToIncludeAll l).bounds.isNull = true :=
      Bool.not_eq_true _ ▸ hspread.isNull
    exact ⟨_, _, ofSequence_of_points hl, hread, iff_of_false hnot hsome, fun _ ↦ rfl,
      hspread.toEnvelope, Bounds.Interchangeable.refl _⟩

/-- What is well formed when grown is well formed when scanned. -/
theorem Refines.wellFormed {s : Sequence Float} {e : Envelope Float} {b : IndexedBox Float}
    {a : Bounds Float} (h : Refines s e b a) (he : e.bounds.WellFormed) : a.WellFormed := by
  rcases Nat.eq_zero_or_pos s.size with hsize | hsize
  · exact Or.inl (h.isNull_iff.mpr hsize)
  · rw [h.sameBounds (by omega)]
    exact he

/-- **A scanned box refines the grown envelope.** -/
theorem ofSequence_refines_growth :
    (∀ s : Sequence Float, s.Readable →
      ∃ e b a, s.expandEnvelope .null = .ok e ∧ Refines s e b a ∧
        ∀ ps : List (Position Float), ps.mapM Position.plane = s.points →
          Envelope.collect ps = .ok e) ∧
    ∀ (σ : Type) [Storage σ] (b : PackedSequence σ),
      (∃ ix a, Refines b.toSequence (b.expandEnvelope .null) ix a) ∧
        b.toSequence.expandEnvelope .null = .ok (b.expandEnvelope .null) ∧
        Envelope.collect (b.coordinates.map .coordinate) = .ok (b.expandEnvelope .null) := by
  constructor
  · intro s hs
    obtain ⟨l, hl⟩ := Sequence.exists_points hs
    obtain ⟨b, a, hrefines⟩ := exists_refines hl
    refine ⟨_, b, a, Sequence.expandEnvelope_of_points hl .null, hrefines, ?_⟩
    intro ps hps
    exact Envelope.collect_of_planes (hps.trans hl)
  · intro σ _ b
    exact ⟨exists_refines b.points_toSequence, b.expandEnvelope_toSequence .null,
      Envelope.collect_of_planes b.mapM_plane_coordinates⟩

/-- Two coordinates, the first of them without an x and with a negative zero that the positive zero
after it does not replace. -/
theorem ofSequence_refines_growth_undefined_first :
    ∃ s : Sequence Float, s.Readable ∧ s.size = 2 ∧
      ∃ b a, s.expandEnvelope .null = .ok ⟨Ordinate.undefined, Ordinate.undefined, -0.0, -0.0⟩ ∧
        Refines s ⟨Ordinate.undefined, Ordinate.undefined, -0.0, -0.0⟩ b a ∧
        Envelope.collect [.pair .tuple (Ordinate.undefined : Float) (-0.0), .pair .tuple 1.0 0.0] =
          .ok ⟨Ordinate.undefined, Ordinate.undefined, -0.0, -0.0⟩ := by
  let s : Sequence Float :=
    .ofCoordinates .xy [{ x := Ordinate.undefined, y := -0.0 }, { x := 1.0, y := 0.0 }]
  have hs : s.Readable := by
    intro i hi
    match i, hi with
    | 0, _ => exact ⟨_, _, rfl, rfl⟩
    | 1, _ => exact ⟨_, _, rfl, rfl⟩
  obtain ⟨e, b, a, he, hrefines, hcollect⟩ := ofSequence_refines_growth.1 s hs
  have hgrown : s.expandEnvelope .null =
      .ok ⟨Ordinate.undefined, Ordinate.undefined, -0.0, -0.0⟩ := by
    rfl
  obtain rfl := Except.ok.inj (he.symm.trans hgrown)
  exact ⟨s, hs, rfl, b, a, hgrown, hrefines, hcollect _ rfl⟩

end IndexedBox

end Geospatial
