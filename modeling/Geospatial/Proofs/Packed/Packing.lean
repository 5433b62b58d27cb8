import Geospatial.Proofs.Packed.Building
import Geospatial.Proofs.Packed.Reading
import Geospatial.Proofs.Packed.Transparency
import Geospatial.Proofs.Storage.Narrowing

/-!
# Packing and unpacking

Packing writes positions into a run; unpacking reads the coordinates of a run. The two describe the
layout differently: packing counts through the ordinates that are present, unpacking asks the layout
where a height and a measure stand. Here they are seen to be inverse to each other.

* `ofPositions_of_fits`, `ofPositions_of_misfit` — packing succeeds exactly where all positions fit,
  and otherwise refuses the first that does not.
* `coordinates_eq_map` — a run whose rows are those of a list of coordinates is read as that list.
* `exists_repack` — positions whose ordinates are those of a packed sequence are packed into a
  sequence alike.

Both directions go through the rows of the run: the stored ordinates of each coordinate
(`PackedSequence.storedAt`), one after the other.
-/

namespace Geospatial

namespace Builder

variable {σ : Type} [Storage σ]

/-- Positions that all fit are taken one after the other. -/
theorem foldlM_tryPush_of_fits {b : Builder σ} {rows : List (List σ)} (h : b.Holds rows)
    {ps : List (Position Float)} (hps : ∀ p ∈ ps, p.Within ∧ p.Fits b.options.layout) :
    ∃ b', ps.foldlM tryPush b = .ok b' ∧ b'.options = b.options ∧
      b'.Holds (rows ++ narrowed (ps.map Position.ordinates)) := by
  induction ps generalizing b rows with
  | nil => exact ⟨b, rfl, rfl, by rwa [List.map_nil, narrowed, List.map_nil, List.append_nil]⟩
  | cons p rest ih =>
    obtain ⟨hp, hfits⟩ := hps p List.mem_cons_self
    have hpush := tryPush_of_fits hp hfits
    have hrow : ∀ row ∈ (narrowed [p.ordinates] : List (List σ)),
        row.length = b.options.layout.stride := fun row hrow ↦ by
      rw [List.mem_singleton.mp hrow, List.length_map, Position.length_ordinates hp, hfits.1]
    have hnext := h.extend hrow
    rw [extend_narrowed_singleton] at hnext
    obtain ⟨b', hfold, hoptions, hholds⟩ :=
      ih hnext fun q hq ↦ hps q (List.mem_cons_of_mem _ hq)
    refine ⟨b', ?_, hoptions, ?_⟩
    · rw [List.foldlM_cons, hpush]
      exact hfold
    · rwa [List.append_assoc] at hholds

/-- The first position that does not fit ends the run with its refusal. -/
theorem foldlM_tryPush_of_misfit {b : Builder σ} {ps : List (Position Float)}
    (hps : ∀ p ∈ ps, p.Within) {p : Position Float}
    (hfind : ps.find? (fun p ↦ ¬p.Fits b.options.layout) = some p) :
    ∃ refusal, check b.options.layout p = .error refusal ∧
      ps.foldlM tryPush b = .error (.refused refusal) := by
  induction ps generalizing b with
  | nil => cases hfind
  | cons q rest ih =>
    rw [List.foldlM_cons]
    -- the positions before the first misfit are taken, and the refusal does not depend on them
    by_cases hfits : q.Fits b.options.layout
    · have hq := hps q List.mem_cons_self
      rw [List.find?_cons_of_neg (by simpa using hfits)] at hfind
      rw [tryPush_of_fits hq hfits]
      exact ih (b := b.extend _) (fun r hr ↦ hps r (List.mem_cons_of_mem _ hr)) hfind
    · rw [List.find?_cons_of_pos (by simpa using hfits)] at hfind
      obtain rfl := Option.some.inj hfind
      obtain ⟨refusal, hcheck, hpush⟩ := tryPush_of_not_fits hfits
      refine ⟨refusal, hcheck, ?_⟩
      rw [hpush]
      rfl

end Builder

namespace PackedSequence

variable {σ : Type} [Storage σ]

/-! ### Packing -/

/-- **Positions that all fit are packed**, each at its index and rounded to the storage type. -/
theorem ofPositions_of_fits {ps : List (Position Float)} {options : SequenceOptions}
    (hps : ∀ p ∈ ps, p.Within ∧ p.Fits options.layout) :
    ∃ s : PackedSequence σ, ofPositions ps options = .ok s ∧ s.options = options ∧
      s.length = ps.length ∧
      s.ordinates.toList = (Builder.narrowed (ps.map Position.ordinates)).flatten ∧
      ∀ (j : Nat) (hj : j < ps.length), s.storedAt j = ps[j].ordinates.map Storage.narrow := by
  let start : Builder σ := ⟨options, #[], ps.length * options.layout.stride⟩
  have hempty : start.Holds [] := Builder.holds_nil rfl
  obtain ⟨b, hfold, hoptions, hholds⟩ := Builder.foldlM_tryPush_of_fits hempty hps
  obtain ⟨s, hfinish, hs, hlength, hrun, hstored⟩ := hholds.finish_eq
  have hcount : (Builder.narrowed (ps.map Position.ordinates) : List (List σ)).length =
      ps.length := by
    rw [Builder.narrowed, List.length_map, List.length_map]
  refine ⟨s, ?_, hs.trans hoptions, hlength.trans hcount, ?_, fun j hj ↦ ?_⟩
  · rw [ofPositions, Builder.ofPositions, hfold]
    show (b.finish.mapError Failure.broken : Except Failure _) = _
    rw [hfinish]
    rfl
  · rw [hrun, hholds.flatten, List.nil_append]
  · rw [hstored j (by rwa [List.nil_append, hcount])]
    simp only [Builder.narrowed, List.nil_append, List.getElem_map]

/-- **The first position that does not fit is refused.** -/
theorem ofPositions_of_misfit {ps : List (Position Float)} {options : SequenceOptions}
    (hps : ∀ p ∈ ps, p.Within) {p : Position Float}
    (hfind : ps.find? (fun p ↦ ¬p.Fits options.layout) = some p) :
    ∃ refusal, Builder.check options.layout p = .error refusal ∧
      (ofPositions ps options : Except Failure (PackedSequence σ)) =
        .error (.refused refusal) := by
  let start : Builder σ := ⟨options, #[], ps.length * options.layout.stride⟩
  obtain ⟨refusal, hcheck, hfold⟩ := Builder.foldlM_tryPush_of_misfit (b := start) hps hfind
  refine ⟨refusal, hcheck, ?_⟩
  rw [ofPositions, Builder.ofPositions, hfold]
  rfl

/-! ### Unpacking -/

/-- A coordinate of the sequence has the ordinates that are stored at its index. -/
theorem ordinates_viewAt (s : PackedSequence σ) (i : Fin s.length) :
    (s.viewAt i).coordinate.ordinates = (s.storedAt i).map Storage.widen := by
  rw [View.ordinates_coordinate, storedAt, Layout.map_chunk]
  rfl

theorem getElem_coordinates (s : PackedSequence σ) {i : Nat} (hi : i < s.coordinates.length) :
    s.coordinates[i] = (s.viewAt ⟨i, s.length_coordinates ▸ hi⟩).coordinate := by
  simp only [coordinates, views, List.getElem_map, List.getElem_ofFn]

/-- **A run that holds the rows of coordinates is read as those coordinates**, each ordinate as it
was stored. -/
theorem coordinates_eq_map {s : PackedSequence σ} {cs : List (Coordinate Float)}
    (hlayout : ∀ c ∈ cs, c.layout = s.layout) (hlength : s.length = cs.length)
    (hstored : ∀ (j : Nat) (hj : j < cs.length),
      s.storedAt j = cs[j].ordinates.map Storage.narrow) :
    s.coordinates = cs.map (Coordinate.map (Storage.rounded σ)) := by
  refine List.ext_getElem (by rw [length_coordinates, List.length_map, hlength])
    fun i hi hi' ↦ ?_
  have hi' : i < cs.length := by rwa [List.length_map] at hi'
  rw [getElem_coordinates, List.getElem_map]
  apply Coordinate.eq_of_ordinates
  · rw [View.layout_coordinate, Coordinate.layout_map, hlayout _ (List.getElem_mem hi')]
    rfl
  · rw [ordinates_viewAt, hstored i hi', Coordinate.ordinates_map, List.map_map]
    rfl

/-! ### Packing what was unpacked -/

/-- Made with the same choices, of ordinates that are alike place by place. -/
structure Alike (s b : PackedSequence σ) : Prop where
  options : s.options = b.options
  ordinates : List.Forall₂ Storage.Alike s.ordinates.toList b.ordinates.toList

omit [Storage σ] in
/-- The stored ordinates of all coordinates are the run. -/
theorem flatten_storedAt (b : PackedSequence σ) :
    ((List.range b.length).map b.storedAt).flatten = b.ordinates.toList := by
  show ((List.range b.length).map (b.layout.chunk b.ordinates.toList)).flatten = _
  rw [Layout.flatten_chunks, b.length_mul_stride, ← Array.length_toList, List.take_length]

/-- A value that can be read in place of a coordinate of a run: it has the same ordinates. -/
structure StandsFor (p : Position Float) (v : View σ) : Prop where
  within : p.Within
  fits : p.Fits v.layout
  ordinates : p.ordinates = v.layout.chunk (v.run.toList.map Storage.widen) v.index

theorem standsFor_position (v : View σ) : StandsFor v.position v where
  within := v.within_position
  fits := View.fits_position.mpr rfl
  ordinates := v.ordinates_position

theorem standsFor_coordinate (v : View σ) : StandsFor (.coordinate v.coordinate) v where
  within := trivial
  fits := Position.fits_coordinate.mpr v.layout_coordinate
  ordinates := v.ordinates_coordinate

/-- Whatever stands for the views of a buffer has the ordinates of its run. -/
theorem map_ordinates_views (b : PackedSequence σ) {f : View σ → Position Float}
    (hf : ∀ v, StandsFor (f v) v) :
    (b.views.map f).map Position.ordinates =
      (List.range b.length).map fun i ↦ (b.storedAt i).map Storage.widen := by
  refine List.ext_getElem ?_ fun i hi hi' ↦ ?_
  · rw [List.length_map, List.length_map, length_views, List.length_map, List.length_range]
  · simp only [views, List.getElem_map, List.getElem_ofFn, List.getElem_range]
    rw [(hf _).ordinates, storedAt, Layout.map_chunk]
    rfl

/-- **What stands for the coordinates of a sequence is packed into a sequence alike.** -/
theorem exists_repack [LawfulStorage σ] (b : PackedSequence σ) {f : View σ → Position Float}
    (hf : ∀ v, StandsFor (f v) v) :
    ∃ s : PackedSequence σ, ofPositions (b.views.map f) b.options = .ok s ∧ s.Alike b := by
  have hfits : ∀ p ∈ b.views.map f, p.Within ∧ p.Fits b.options.layout := by
    intro p hp
    obtain ⟨v, hv, rfl⟩ := List.mem_map.mp hp
    obtain ⟨i, rfl⟩ := List.mem_ofFn.mp hv
    exact ⟨(hf _).within, (hf _).fits⟩
  obtain ⟨s, hs, hoptions, -, hrun, -⟩ := ofPositions_of_fits (σ := σ) hfits
  refine ⟨s, hs, hoptions, ?_⟩
  -- every ordinate is widened when it is read and narrowed when it is written again
  have hwritten : s.ordinates.toList =
      b.ordinates.toList.map fun t ↦ Storage.narrow (Storage.widen t) := by
    rw [hrun, map_ordinates_views b hf, Builder.narrowed, ← flatten_storedAt, List.map_flatten,
      List.map_map, List.map_map]
    simp only [Function.comp_def, List.map_map]
  rw [hwritten]
  exact Storage.forall₂_alike_repack _

/-- A sequence in some use: made of stored ordinates, then read, written to, copied and exchanged
for its copies in any steps. -/
def InUse (b : PackedSequence σ) : Prop :=
  ∃ ordinates options b₀ steps, ofStored ordinates options = .ok b₀ ∧
    ((Session.start b₀).run steps).1.Owns b

/-- A buffer that was worked with has no stale points. -/
theorem InUse.upToDate {b : PackedSequence σ} (h : b.InUse) : b.UpToDate := by
  obtain ⟨ordinates, options, b₀, steps, hb₀, hb⟩ := h
  have hstart := Session.upToDate_start (Session.slot_ofStored hb₀).1
  exact Session.upToDate_run hstart steps b hb

/-! ### There and back -/

theorem upToDate_of_ofPositions {ps : List (Position Float)} {options : SequenceOptions}
    {s : PackedSequence σ} (h : ofPositions ps options = .ok s) : s.UpToDate := by
  obtain ⟨b, -, hfinish⟩ := bind_eq_ok_iff.mp h
  have hfinish : ((ofStored b.ordinates b.options).mapError Violation.vouched).mapError
      Failure.broken = .ok s := hfinish
  rcases hs : ofStored b.ordinates b.options with refusal | made
  · rw [hs] at hfinish
    cases hfinish
  · rw [hs] at hfinish
    obtain rfl := Except.ok.inj hfinish
    exact upToDate_of_slot_empty (Session.slot_ofStored hs).1

variable {cs : List (Coordinate Float)} {options : SequenceOptions}

/-- Coordinates of one layout are packed, and the array of points lists them. -/
theorem exists_ofPositions_coordinates (hcs : ∀ c ∈ cs, c.layout = options.layout) :
    ∃ s : PackedSequence σ, ofPositions (cs.map .coordinate) options = .ok s ∧
      s.options = options ∧ s.length = cs.length ∧
      ∀ held id, (s.pointArray held id).1.points = cs.map (Coordinate.map (Storage.rounded σ)) := by
  have hfits : ∀ p ∈ cs.map Position.coordinate, p.Within ∧ p.Fits options.layout := by
    intro p hp
    obtain ⟨c, hc, rfl⟩ := List.mem_map.mp hp
    exact ⟨trivial, Position.fits_coordinate.mpr (hcs c hc)⟩
  obtain ⟨s, hs, rfl, hlength, -, hstored⟩ := ofPositions_of_fits (σ := σ) hfits
  rw [List.length_map] at hlength
  refine ⟨s, hs, rfl, hlength, fun held id ↦ ?_⟩
  rw [points_pointArray (upToDate_of_ofPositions hs)]
  refine coordinates_eq_map hcs hlength fun j hj ↦ ?_
  rw [hstored j (by rwa [List.length_map]), List.getElem_map]
  rfl

/-- The first coordinate of another layout fails the packing as it fails a push. -/
theorem ofPositions_coordinates_of_find {c : Coordinate Float}
    (hfind : cs.find? (fun c ↦ c.layout ≠ options.layout) = some c) :
    ∃ failure, (ofPositions (cs.map .coordinate) options : Except Failure (PackedSequence σ)) =
        .error failure ∧
      ∀ b : Builder σ, b.options = options → b.tryPush (.coordinate c) = .error failure := by
  have hpositions : (cs.map Position.coordinate).find? (fun p ↦ ¬p.Fits options.layout) =
      some (.coordinate c) := by
    rw [List.find?_map]
    simp only [Function.comp_def, Position.fits_coordinate]
    rw [hfind]
    rfl
  have hwithin : ∀ p ∈ cs.map Position.coordinate, p.Within := by
    intro p hp
    obtain ⟨c, -, rfl⟩ := List.mem_map.mp hp
    exact trivial
  have hmisfit : ¬(Position.coordinate c).Fits options.layout := by
    simpa using List.find?_some hpositions
  obtain ⟨refusal, hcheck, hpacked⟩ := ofPositions_of_misfit (σ := σ) hwithin hpositions
  refine ⟨.refused refusal, hpacked, ?_⟩
  rintro b rfl
  -- pushed alone it fails by the same check, and a check gives one refusal
  obtain ⟨refusal', hcheck', hpush⟩ := Builder.tryPush_of_not_fits hmisfit
  rw [hpush, Except.error.inj (hcheck.symm.trans hcheck')]

/-- Coordinates that were packed had the layout asked for. -/
theorem layout_of_ofPositions {s : PackedSequence σ}
    (hs : ofPositions (cs.map .coordinate) options = .ok s) :
    ∀ c ∈ cs, c.layout = options.layout := by
  by_contra hcs
  rcases hfind : cs.find? (fun c ↦ c.layout ≠ options.layout) with - | c
  · exact hcs (by simpa using List.find?_eq_none.mp hfind)
  · obtain ⟨failure, hfailure, -⟩ := ofPositions_coordinates_of_find (σ := σ) hfind
    cases hs.symm.trans hfailure

/-- **Packing and unpacking are inverse.**

* A list of coordinates is packed exactly where all of them have the layout asked for. Otherwise the
  first that has another fails the whole, as it fails when it is pushed alone.
* What is packed has the options asked for, and the array of its points lists the same coordinates,
  each ordinate that is present rounded to the storage type.
* The coordinates of a sequence, in place or out of the array of its points, are packed into a
  sequence alike. -/
theorem ofPositions_points_inverse (options : SequenceOptions) (cs : List (Coordinate Float)) :
    let packed : Except Failure (PackedSequence σ) := ofPositions (cs.map .coordinate) options
    ((∃ s, packed = .ok s) ↔ ∀ c ∈ cs, c.layout = options.layout) ∧
    (∀ c, cs.find? (fun c ↦ c.layout ≠ options.layout) = some c →
      ∃ failure, packed = .error failure ∧
        ∀ b : Builder σ, b.options = options → b.tryPush (.coordinate c) = .error failure) ∧
    (∀ s, packed = .ok s → s.options = options ∧ s.length = cs.length ∧
      ∀ held id, (s.pointArray held id).1.points = cs.map (Coordinate.map (Storage.rounded σ))) ∧
    ∀ [LawfulStorage σ] (b : PackedSequence σ),
      (∃ s : PackedSequence σ, ofPositions (b.views.map View.position) b.options = .ok s ∧
        s.Alike b) ∧
      (b.InUse → ∀ held id, ∃ s : PackedSequence σ,
        ofPositions ((b.pointArray held id).1.points.map .coordinate) b.options = .ok s ∧
          s.Alike b) := by
  intro packed
  refine ⟨⟨fun ⟨s, hs⟩ ↦ layout_of_ofPositions hs, fun hcs ↦ ?_⟩,
    fun c hfind ↦ ofPositions_coordinates_of_find hfind, fun s hs ↦ ?_,
    fun b ↦ ⟨b.exists_repack standsFor_position, fun hb held id ↦ ?_⟩⟩
  · obtain ⟨s, hs, -⟩ := exists_ofPositions_coordinates (σ := σ) hcs
    exact ⟨s, hs⟩
  · have hcs := layout_of_ofPositions hs
    obtain ⟨made, hmade, hread⟩ := exists_ofPositions_coordinates (σ := σ) hcs
    obtain rfl := Except.ok.inj (hmade.symm.trans hs)
    exact hread
  · rw [points_pointArray hb.upToDate, coordinates, List.map_map]
    exact b.exists_repack standsFor_coordinate

/-- Numbers of 16 bits with a measure: 0.1 is rounded and comes back rounded, a measure that is not
known stays unknown, and a height in the place of a measure is turned down. -/
theorem ofPositions_points_inverse_measured :
    let options : SequenceOptions := ⟨.xym, .retained⟩
    let height : Coordinate Float := ⟨7.0, 8.0, some 9.0, none⟩
    let cs : List (Coordinate Float) := [⟨1.0, 2.0, none, some 0.1⟩, ⟨4.0, 5.0, none, some 6.0⟩]
    let unknown : PackedSequence Storage.Half :=
      ⟨.xym, #[Storage.narrow 1.0, Storage.narrow 2.0, Storage.narrow Ordinate.undefined], rfl,
        ⟨.retained, .empty⟩⟩
    (∃ failure, (ofPositions ((cs ++ [height]).map .coordinate) options :
      Except Failure (PackedSequence Storage.Half)) = .error failure) ∧
    (∃ s : PackedSequence Storage.Half, ofPositions (cs.map .coordinate) options = .ok s ∧
      ∀ held id, (s.pointArray held id).1.points =
        cs.map (Coordinate.map (Storage.rounded Storage.Half))) ∧
    unknown.InUse ∧ ∀ held id, ∃ s : PackedSequence Storage.Half,
      ofPositions ((unknown.pointArray held id).1.points.map .coordinate) unknown.options = .ok s ∧
        s.Alike unknown := by
  intro options height cs unknown
  have hmade : ofStored unknown.ordinates unknown.options = .ok unknown := dif_pos unknown.whole
  have huse : unknown.InUse := ⟨unknown.ordinates, unknown.options, unknown, [], hmade, Or.inl rfl⟩
  obtain ⟨-, hfails, -, -⟩ :=
    ofPositions_points_inverse (σ := Storage.Half) options (cs ++ [height])
  obtain ⟨hpacks, -, hreads, hrepacks⟩ := ofPositions_points_inverse (σ := Storage.Half) options cs
  obtain ⟨failure, hfailure, -⟩ := hfails height rfl
  obtain ⟨s, hs⟩ := hpacks.mpr (by simp [cs, options, Coordinate.layout, Layout.ofPresence])
  exact ⟨⟨failure, hfailure⟩, ⟨s, hs, (hreads s hs).2.2⟩, huse, (hrepacks unknown).2 huse⟩

end PackedSequence

end Geospatial
