import Geospatial.Proofs.Bounds.Lookup
import Geospatial.Proofs.Envelope.Canonical
import Geospatial.Proofs.Extrema.Coverage
import Geospatial.Proofs.Packed.PastEnd
import Geospatial.Proofs.Packed.PlaneFrame

/-!
# Indices that are attached again

The indices that a scan found can be kept and read through the sequence later, or through another
one. Nothing checks that they still point at extrema, and this module says what that costs.

* Indices within the sequence read bounds that lie between those of a fresh scan, whatever they
  point at (`Extrema.Finds.coversPoint`), and the box is equal to the fresh one exactly where each
  index points at an extremum (`Extrema.attained_iff_equals`).
* As long as nobody writes to an x or a y, a fresh scan finds the same indices and reads the same
  bounds (`ofSequence_of_samePlane`).
* An index past the end is refused by the bound that is looked up there.

**A box without numbers is not equal to itself.** A first coordinate that is none stays in its
bounds, and then the box that is attached is the fresh one bit for bit, without being equal to it.
-/

namespace Geospatial

open Ordinate (IsNumber)

section

variable {α : Type} [Ordinate α]

/-! ### Extrema that are pointed at -/

/-- The extreme value of a side is attained at the index. -/
def Side.AttainedAt (side : Side) (values : List α) (i : Nat) : Prop :=
  ∃ v, side.Attains values ⟨i, v⟩

/-- Each of the four indices points at a coordinate that attains its bound. -/
structure Extrema.Attained (ix : Extrema) (points : List (α × α)) : Prop where
  minX : Side.lower.AttainedAt (points.map Prod.fst) ix.minX
  minY : Side.lower.AttainedAt (points.map Prod.snd) ix.minY
  maxX : Side.upper.AttainedAt (points.map Prod.fst) ix.maxX
  maxY : Side.upper.AttainedAt (points.map Prod.snd) ix.maxY

omit [Ordinate α] in
/-- Indices below the length read bounds. -/
theorem Extrema.Below.exists_finds {ix : Extrema} {points : List (α × α)}
    (h : ix.Below points.length) : ∃ a, ix.Finds points a := by
  obtain ⟨hminX, hminY, hmaxX, hmaxY⟩ := h
  exact ⟨⟨false, points[ix.minX].1, points[ix.maxX].1, points[ix.minY].2, points[ix.maxY].2⟩, rfl,
    by simp [hminX], by simp [hmaxX], by simp [hminY], by simp [hmaxY]⟩

section Numbers

variable {ix : Extrema} {points : List (α × α)} {a : Bounds α} {e : Envelope α}
  (hnumbers : ∀ p ∈ points, IsNumber p.1 ∧ IsNumber p.2)

include hnumbers

/-- **Whatever the indices point at, both corners lie in the box of all points.** -/
theorem Extrema.Finds.coversPoint (h : ix.Finds points a) (he : e.AttainedBy points) :
    e.bounds.coversPoint a.minX a.minY = true ∧ e.bounds.coversPoint a.maxX a.maxY = true := by
  have hminX := List.mem_of_getElem? h.minX
  have hmaxX := List.mem_of_getElem? h.maxX
  have hminY := List.mem_of_getElem? h.minY
  have hmaxY := List.mem_of_getElem? h.maxY
  exact ⟨he.coversPoint hminX hminY (isNumber_fst hnumbers _ hminX)
      (isNumber_snd hnumbers _ hminY),
    he.coversPoint hmaxX hmaxY (isNumber_fst hnumbers _ hmaxX)
      (isNumber_snd hnumbers _ hmaxY)⟩

end Numbers

variable [LawfulOrdinate α]

/-- An index points at an extremum exactly where the value that stands there equals it. -/
theorem Side.attainedAt_iff_beq {side : Side} {values : List α} {bound v : α} {i : Nat}
    (h : side.IsExtreme values bound) (hv : values[i]? = some v) :
    side.AttainedAt values i ↔ (v == bound) = true := by
  constructor
  · rintro ⟨w, hw⟩
    obtain rfl : w = v := Option.some.inj (hw.found.symm.trans hv)
    exact IsExtreme.beq ⟨i, hw⟩ h
  · intro hbeq
    obtain ⟨hle, hge⟩ := LawfulOrdinate.beq_iff_le_ge.mp hbeq
    have hreaches : side.Reaches v bound := by
      cases side with
      | lower => exact hle
      | upper => exact hge
    exact ⟨v, hv, Ordinate.isNumber_left hle, fun w hw hnumber ↦
      hreaches.trans (h.reaches hw hnumber)⟩

/-- **The box that is read equals the box of all points exactly where the extrema are attained.** -/
theorem Extrema.attained_iff_equals {ix : Extrema} {points : List (α × α)} {a : Bounds α}
    {e : Envelope α} (h : ix.Finds points a) (he : e.AttainedBy points) :
    a.equals e.bounds = true ↔ ix.Attained points := by
  rw [Bounds.equals_iff_beq h.notNull he.notNull, Envelope.bounds_maxX, Envelope.bounds_maxY,
    Envelope.bounds_minX, Envelope.bounds_minY, ← Side.attainedAt_iff_beq he.maxX h.maxX,
    ← Side.attainedAt_iff_beq he.maxY h.maxY, ← Side.attainedAt_iff_beq he.minX h.minX,
    ← Side.attainedAt_iff_beq he.minY h.minY]
  constructor
  · rintro ⟨⟨hmaxX, hmaxY⟩, hminX, hminY⟩
    exact ⟨hminX, hminY, hmaxX, hmaxY⟩
  · rintro ⟨hminX, hminY, hmaxX, hmaxY⟩
    exact ⟨⟨hmaxX, hmaxY⟩, hminX, hminY⟩

/-- The box of some points is equal to itself exactly where the first of them is made of numbers. -/
theorem Envelope.equals_self_iff {e : Envelope α} {points : List (α × α)} (he : e.isNull = true)
    (hne : points ≠ []) :
    (e.expandToIncludeAll points).bounds.equals (e.expandToIncludeAll points).bounds = true ↔
      LedByNumbers points := by
  constructor
  · intro hequals
    by_contra hnot
    have hnull : (e.expandToIncludeAll points).bounds.isNull = false := by
      obtain ⟨p, rest, rfl⟩ := List.exists_cons_of_ne_nil hne
      exact (Extremes.tracks_scan he p rest).spread.isNull
    obtain ⟨-, hminX, hminY⟩ := (Bounds.equals_iff_beq hnull hnull).mp hequals
    rcases not_isNumber_expandToIncludeAll he hnot with h | h
    · exact h (LawfulOrdinate.beq_iff_le_ge.mp hminX).1
    · exact h (LawfulOrdinate.beq_iff_le_ge.mp hminY).1
  · intro hled
    have hattained := attainedBy_expandToIncludeAll he hne hled
    exact Bounds.equals_of_covers (hattained.covers hattained (List.Subset.refl points))
      (hattained.covers hattained (List.Subset.refl points))

end

namespace IndexedBox

/-- Boxes that can be read are as equal as their readings. -/
theorem equals_of_bounds {a b : IndexedBox Float} {A B : Bounds Float} (ha : a.bounds = .ok A)
    (hb : b.bounds = .ok B) :
    (BoundingBox.indexed a).equals (.indexed b) = .ok (A.equals B) :=
  BoundingBox.equals_of_reads (BoundingBox.bounds_eq_ok_iff.mp ha)
    (BoundingBox.bounds_eq_ok_iff.mp hb)

/-- Over a sequence made of numbers, indices within it read bounds between those of a fresh scan,
and equal to them exactly where they point at extrema. -/
theorem exists_attach_within {s : Sequence Float} {l : List (Float × Float)}
    (hl : s.points = .ok l) (hnumbers : ∀ p ∈ l, IsNumber p.1 ∧ IsNumber p.2) {ix : Extrema}
    (h : ix.Below s.size) :
    ∃ fresh f a, ofSequence s = .ok fresh ∧ fresh.bounds = .ok f ∧ (attach ix s).bounds = .ok a ∧
      a.isNull = false ∧
      (f.coversPoint a.minX a.minY = true ∧ f.coversPoint a.maxX a.maxY = true) ∧
      ∃ r, (BoundingBox.indexed (attach ix s)).equals (.indexed fresh) = .ok r ∧
        (r = true ↔ ix.Attained l) := by
  have hsize : l.length = s.size := (Sequence.points_eq_ok_iff.mp hl).1
  obtain ⟨a, hfinds⟩ := Extrema.Below.exists_finds (hsize ▸ h)
  have hne : l ≠ [] := by
    rintro rfl
    exact Nat.not_lt_zero _ (hsize ▸ h.minX)
  -- with numbers everywhere the first point leads, and every bound is attained
  have hled : LedByNumbers l := fun p hp ↦ hnumbers p (List.mem_of_mem_head? hp)
  have he := Envelope.attainedBy_expandToIncludeAll Envelope.isNull_null hne hled
  obtain ⟨-, hfresh⟩ := bounds_scan hl hne Envelope.isNull_null
  have ha := bounds_attach hl hfinds
  exact ⟨_, _, a, ofSequence_of_points hl, hfresh, ha, hfinds.notNull,
    hfinds.coversPoint hnumbers he, _, equals_of_bounds ha hfresh,
    Extrema.attained_iff_equals hfinds he⟩

/-- **Where nobody wrote to an x or a y, the indices are those of a fresh scan.** -/
theorem exists_attach_unmoved {σ : Type} [Storage σ] {b c : PackedSequence σ} {ix : Extrema}
    (hscan : Extrema.scan b.points = some ix) (h : PackedSequence.SamePlane b c) :
    ofSequence c.toSequence = .ok (attach ix c.toSequence) ∧
      ∃ a, (attach ix b.toSequence).bounds = .ok a ∧ (attach ix c.toSequence).bounds = .ok a ∧
        (a.equals a = true ↔ LedByNumbers b.points) := by
  have hne : b.points ≠ [] := by
    intro hnil
    rw [hnil] at hscan
    cases hscan
  obtain ⟨-, hbefore⟩ := bounds_scan b.points_toSequence hne Envelope.isNull_null
  obtain ⟨-, hafter⟩ := bounds_scan h.points_toSequence hne Envelope.isNull_null
  have hfresh := ofSequence_of_points h.points_toSequence
  -- the plane is the same, so that the scan finds the same indices
  rw [hscan] at hbefore hafter hfresh
  exact ⟨hfresh, _, hbefore, hafter, Envelope.equals_self_iff Envelope.isNull_null hne⟩

end IndexedBox

/-- A scan in a session answers with the extrema of the buffer at hand. -/
theorem Session.answer_scan {σ : Type} [Storage σ] (s : Session σ) (name : String) :
    (s.step (.scan name)).2 = .ok (.extrema (Extrema.scan s.buffer.points)) := by
  have hscan : Extrema.scan <$> s.buffer.toSequence.points =
      .ok (Extrema.scan s.buffer.points) := by
    rw [s.buffer.points_toSequence]
    rfl
  show SessionAnswer.extrema <$> (s.scan name).2 = _
  rw [scan, hscan]
  cases Extrema.scan s.buffer.points <;> rfl

namespace IndexedBox

/-- **Indices that are attached again read a box within the fresh one**, and the fresh one itself
while the plane is left alone.

* Over a sequence made of numbers, any four indices within it read a box that is not null and has
  both corners in the box of a fresh scan. The two are equal exactly where each index points at a
  coordinate that attains its bound.
* After a scan and any run of steps that write to no x and no y, a fresh scan finds the same
  indices. The bounds that are read through them are the same values as before, bit for bit, and
  the two boxes are equal exactly where the first coordinate is made of numbers.
* An index past the end of a packed sequence is refused by the bound that is looked up there,
  however far past the end it is. -/
theorem attach_stays_within :
    (∀ s : Sequence Float, s.OfNumbers → ∀ ix : Extrema, ix.Below s.size →
      ∃ l fresh f a, s.points = .ok l ∧ ofSequence s = .ok fresh ∧ fresh.bounds = .ok f ∧
        (attach ix s).bounds = .ok a ∧ a.isNull = false ∧
        (f.coversPoint a.minX a.minY = true ∧ f.coversPoint a.maxX a.maxY = true) ∧
        ∃ r, (BoundingBox.indexed (attach ix s)).equals (.indexed fresh) = .ok r ∧
          (r = true ↔ ix.Attained l)) ∧
    (∀ (σ : Type) [Storage σ] (s : Session σ) (name : String) (ix : Extrema),
      (s.step (.scan name)).2 = .ok (.extrema (some ix)) →
      ∀ steps : List SessionStep, (∀ t ∈ steps, t.SparesPlane s.buffer.layout) →
        let after := ((s.step (.scan name)).1.run steps).1.buffer.toSequence
        ∃ fresh a r, ofSequence after = .ok fresh ∧ fresh.indices = some ix ∧
          (attach ix s.buffer.toSequence).bounds = .ok a ∧ (attach ix after).bounds = .ok a ∧
          fresh.bounds = .ok a ∧
          (BoundingBox.indexed (attach ix after)).equals (.indexed fresh) = .ok r ∧
          (r = true ↔ LedByNumbers s.buffer.points)) ∧
    ∀ (σ : Type) [Storage σ] (b : PackedSequence σ) (ix : Extrema),
      let read := attach ix b.toSequence
      (b.length ≤ ix.minX → ∃ v, read.minX = .error v) ∧
      (b.length ≤ ix.maxX → ∃ v, read.maxX = .error v) ∧
      (b.length ≤ ix.minY → ∃ v, read.minY = .error v) ∧
      (b.length ≤ ix.maxY → ∃ v, read.maxY = .error v) := by
  refine ⟨fun s hs ix h ↦ ?_, fun σ _ s name ix hscan steps hsteps ↦ ?_, fun σ _ b ix ↦ ?_⟩
  · obtain ⟨l, hl, hnumbers⟩ := hs.points
    exact ⟨l, (exists_attach_within hl hnumbers h).imp fun fresh hf ↦ hf.imp fun f ha ↦
      ha.imp fun a hread ↦ ⟨hl, hread⟩⟩
  · intro after
    rw [Session.answer_scan] at hscan
    have hfound : Extrema.scan s.buffer.points = some ix :=
      SessionAnswer.extrema.inj (Except.ok.inj hscan)
    -- the scan itself is one of the steps that spare the plane
    have hspared : ∀ t ∈ SessionStep.scan name :: steps, t.SparesPlane s.buffer.layout :=
      List.forall_mem_cons.mpr ⟨trivial, hsteps⟩
    obtain ⟨hfresh, a, hbefore, hafter, hself⟩ :=
      exists_attach_unmoved hfound (Session.samePlane_run hspared)
    exact ⟨_, a, _, hfresh, rfl, hbefore, hafter, hafter, equals_of_bounds hafter hafter, hself⟩
  · exact ⟨fun hi ↦ (b.failsLoudly_of_le hi).x, fun hi ↦ (b.failsLoudly_of_le hi).x,
      fun hi ↦ (b.failsLoudly_of_le hi).y, fun hi ↦ (b.failsLoudly_of_le hi).y⟩

/-- Foreign indices read an upper bound of y below the lower one, and both lie in the box. Behind a
scan, measures are written to in both ways, also past the end: one of them is at an index whose
place as a measure, modulo the number of words, would be that of the first x. A fifth ordinate is
not there to be written to. The points are taken, and given up again. The index 2 has no x and no
y. -/
theorem attach_stays_within_inverted :
    let s : Sequence Float :=
      .ofCoordinates .xy [{ x := 1.0, y := 5.0 }, { x := 3.0, y := 2.0 }, { x := 0.0, y := 9.0 }]
    let b : PackedSequence Float :=
      ⟨.xym, #[1.0, 5.0, 0.0, 3.0, 2.0, 0.0], rfl, ⟨.retained, .empty⟩⟩
    let steps : List SessionStep :=
      [.setOrdinate 0 2 7.0, .points (some "a"), .writeRaw [(5, 8.0)], .setOrdinate 0 4 9.0,
        .setOrdinate 12297829382473034410 2 9.0, .setOrdinate 2 2 1.0]
    let after := (((Session.start b).step (.scan "s")).1.run steps).1.buffer.toSequence
    (s.OfNumbers ∧ Extrema.Below ⟨1, 0, 1, 1⟩ s.size ∧
      ∃ fresh f a, ofSequence s = .ok fresh ∧ fresh.bounds = .ok f ∧
        (attach ⟨1, 0, 1, 1⟩ s).bounds = .ok a ∧ a.isNull = false ∧
        f.coversPoint a.minX a.minY = true) ∧
    (((Session.start b).step (.scan "s")).2 = .ok (.extrema (some ⟨0, 1, 1, 0⟩)) ∧
      (∀ t ∈ steps, t.SparesPlane b.layout) ∧
      ∃ fresh, ofSequence after = .ok fresh ∧ fresh.indices = some ⟨0, 1, 1, 0⟩ ∧
        (BoundingBox.indexed (attach ⟨0, 1, 1, 0⟩ after)).equals (.indexed fresh) = .ok true) ∧
    b.length ≤ 2 ∧ (∃ v, (attach ⟨2, 2, 0, 0⟩ b.toSequence).minX = .error v) ∧
      ∃ v, (attach ⟨2, 2, 0, 0⟩ b.toSequence).minY = .error v := by
  intro s b steps after
  obtain ⟨hwithin, hunmoved, hpast⟩ := attach_stays_within
  have hs : s.OfNumbers := by
    refine (Sequence.forall_read_iff (l := [(1.0, 5.0), (3.0, 2.0), (0.0, 9.0)]) rfl _).mpr ?_
    decide
  have hbelow : Extrema.Below ⟨1, 0, 1, 1⟩ s.size := ⟨by decide, by decide, by decide, by decide⟩
  have hscan : ((Session.start b).step (.scan "s")).2 = .ok (.extrema (some ⟨0, 1, 1, 0⟩)) := by
    have hfound : Extrema.scan b.points = some ⟨0, 1, 1, 0⟩ := by decide
    rw [Session.answer_scan]
    exact congrArg (fun found ↦ Except.ok (SessionAnswer.extrema found)) hfound
  have hsteps : ∀ t ∈ steps, t.SparesPlane b.layout := by
    simp [steps, b, SessionStep.SparesPlane, Layout.stride]
  obtain ⟨-, fresh, f, a, -, hfresh, hf, ha, hnull, ⟨hcovers, -⟩, -⟩ := hwithin s hs _ hbelow
  obtain ⟨fresh', -, r, hfresh', hindices, -, -, -, hequals, hself⟩ :=
    hunmoved Float (.start b) "s" _ hscan steps hsteps
  obtain rfl : r = true := hself.mpr (by decide)
  obtain ⟨hminX, -, hminY, -⟩ := hpast Float b ⟨2, 2, 0, 0⟩
  exact ⟨⟨hs, hbelow, fresh, f, a, hfresh, hf, ha, hnull, hcovers⟩,
    ⟨hscan, hsteps, fresh', hfresh', hindices, hequals⟩, by decide, hminX (by decide),
    hminY (by decide)⟩

/-- Behind a first coordinate that is no number, the box that is attached is the fresh one and not
equal to it. -/
theorem not_equals_fresh_undefined :
    let u : PackedSequence Float :=
      ⟨.xyz, #[Ordinate.undefined, 1.0, 2.0], rfl, ⟨.retained, .empty⟩⟩
    let after := (((Session.start u).step (.scan "s")).1.run [.setOrdinate 0 2 7.0]).1.buffer
    ((Session.start u).step (.scan "s")).2 = .ok (.extrema (some ⟨0, 0, 0, 0⟩)) ∧
      ofSequence after.toSequence = .ok (attach ⟨0, 0, 0, 0⟩ after.toSequence) ∧
      (BoundingBox.indexed (attach ⟨0, 0, 0, 0⟩ after.toSequence)).equals
        (.indexed (attach ⟨0, 0, 0, 0⟩ after.toSequence)) = .ok false := by
  intro u after
  have hscan : Extrema.scan u.points = some ⟨0, 0, 0, 0⟩ := by decide
  have hafter : Extrema.scan after.points = some ⟨0, 0, 0, 0⟩ := by
    unfold after u
    decide
  refine ⟨?_, ?_, ?_⟩
  · rw [Session.answer_scan]
    exact congrArg (fun found ↦ Except.ok (SessionAnswer.extrema found)) hscan
  · rw [ofSequence_of_points after.points_toSequence, hafter]
    rfl
  · unfold after u
    rfl

end IndexedBox

end Geospatial
