import Geospatial.Packed.Builder
import Geospatial.Proofs.Position.Ordinates

/-!
# What a builder holds

A builder holds a list of whole coordinates, one after the other, and every step adds to the end of
that list. The list is told twice: as the rows of stored ordinates that the run of a builder is made
of (`Builder.Holds`), and as what each step adds to them (`Step.added`). The two are joined by one
lemma for a step (`holds_step`), and by induction for a run of steps (`holds_run`).

**A position is taken as a whole or not at all.** `Position.Fits` is what it is looked at for. One
that fits can be read up to its last ordinate, so that nothing goes wrong once the run has begun to
grow (`tryPush_of_fits`); any other is refused before that (`tryPush_of_not_fits`).

**Where building begins with zeros**, their ordinates are counted in a machine word and have to fit
into memory. Either there are as many of them as were asked for, or building does not begin at all
(`zeros_eq_ok_iff`).
-/

namespace Geospatial

/-! ### Positions that fit -/

namespace Position

variable {α : Type}

/-- The position has the ordinates of the layout, as far as it can tell. -/
def Fits (p : Position α) (layout : Layout) : Prop :=
  p.count = layout.stride ∧ ∀ found ∈ p.layout?, found = layout

instance (p : Position α) (layout : Layout) : Decidable (p.Fits layout) :=
  inferInstanceAs (Decidable (_ ∧ _))

/-- A position that knows its layout, and has as many ordinates as that says, fits this layout. -/
theorem fits_iff_of_known {p : Position α} {known layout : Layout} (hknown : p.layout? = some known)
    (hcount : p.count = known.stride) : p.Fits layout ↔ known = layout := by
  constructor
  · exact fun h ↦ h.2 known hknown
  · rintro rfl
    refine ⟨hcount, fun found hfound ↦ ?_⟩
    exact Option.some.inj (hfound.symm.trans hknown)

/-- A coordinate knows its layout, and fits that one only. -/
theorem fits_coordinate {c : Coordinate α} {layout : Layout} :
    (Position.coordinate c).Fits layout ↔ c.layout = layout :=
  fits_iff_of_known rfl rfl

end Position

namespace View

variable {σ : Type} [Storage σ]

theorem fits_position {v : View σ} {layout : Layout} :
    v.position.Fits layout ↔ v.layout = layout :=
  Position.fits_iff_of_known rfl rfl

end View

namespace PackedSequence

variable {σ : Type}

/-- The stored ordinates of the coordinate at an index. -/
def storedAt (s : PackedSequence σ) (i : Nat) : List σ :=
  s.layout.chunk s.ordinates.toList i

end PackedSequence

namespace Builder

variable {σ : Type} [Storage σ]

/-- The check before a position is taken is a check that it fits. -/
theorem check_eq_ok_iff {layout : Layout} {p : Position Float} :
    check layout p = .ok () ↔ p.Fits layout := by
  rw [check, Position.Fits]
  split
  · rename_i hcount
    exact ⟨nofun, fun h ↦ absurd h.1 hcount⟩
  · rename_i hcount
    have hcount : p.count = layout.stride := not_not.mp hcount
    rcases hknown : p.layout? with - | found
    · exact ⟨fun _ ↦ ⟨hcount, nofun⟩, fun _ ↦ rfl⟩
    · by_cases hfound : found = layout <;> simp [hfound, hcount]

/-- The builder with more ordinates at the end of its run. -/
def extend (b : Builder σ) (l : List σ) : Builder σ :=
  { b with ordinates := b.ordinates ++ l.toArray }

omit [Storage σ] in
@[simp] theorem toList_extend (b : Builder σ) (l : List σ) :
    (b.extend l).ordinates.toList = b.ordinates.toList ++ l := by
  rw [extend, Array.toList_append]

variable {b : Builder σ} {p : Position Float}

/-- **A position that fits is taken, with all its ordinates.** -/
theorem tryPush_of_fits (hp : p.Within) (hfits : p.Fits b.options.layout) :
    b.tryPush p = .ok (b.extend (p.ordinates.map Storage.narrow)) := by
  have hcheck : check b.options.layout p = .ok () := check_eq_ok_iff.mpr hfits
  have hread : (List.range b.options.layout.stride).mapM p.ordinate = .ok p.ordinates :=
    hfits.1 ▸ Position.mapM_ordinate hp
  rw [tryPush, hcheck, hread]
  rfl

/-- **Any other position is refused**, for what the look at it found. -/
theorem tryPush_of_not_fits (hfits : ¬p.Fits b.options.layout) :
    ∃ refusal, check b.options.layout p = .error refusal ∧
      b.tryPush p = .error (.refused refusal) := by
  rcases hcheck : check b.options.layout p with refusal | ⟨⟩
  · refine ⟨refusal, rfl, ?_⟩
    rw [tryPush, hcheck]
    rfl
  · exact absurd (check_eq_ok_iff.mp hcheck) hfits

/-! ### Rows of stored ordinates -/

/-- The run of the builder is made of the given rows, each a whole coordinate. -/
structure Holds (b : Builder σ) (rows : List (List σ)) : Prop where
  flatten : b.ordinates.toList = rows.flatten
  whole : ∀ row ∈ rows, row.length = b.options.layout.stride

namespace Holds

variable {rows : List (List σ)}

omit [Storage σ]

/-- The rows are laid side by side, each with as many ordinates as the layout has. -/
theorem size_eq (h : b.Holds rows) :
    b.ordinates.size = rows.length * b.options.layout.stride := by
  rw [← Array.length_toList, h.flatten, Layout.length_flatten h.whole]

theorem length_eq (h : b.Holds rows) : b.length = rows.length := by
  rw [Builder.length, h.size_eq, Nat.mul_div_cancel _ b.options.layout.stride_pos]

/-- **What is finished holds the rows**, each at its index. -/
theorem finish_eq (h : b.Holds rows) :
    ∃ s, b.finish = .ok s ∧ s.options = b.options ∧ s.length = rows.length ∧
      s.ordinates = b.ordinates ∧
      ∀ (j : Nat) (hj : j < rows.length), s.storedAt j = rows[j] := by
  have hwhole : b.ordinates.size % b.options.layout.stride = 0 := by
    rw [h.size_eq, Nat.mul_mod_left]
  refine ⟨⟨b.options.layout, b.ordinates, hwhole, { policy := b.options.cache }⟩, ?_, rfl,
    h.length_eq, rfl, fun j hj ↦ ?_⟩
  · rw [finish, PackedSequence.ofVouched, PackedSequence.ofStored, dif_pos hwhole]
    rfl
  · show b.options.layout.chunk b.ordinates.toList j = rows[j]
    rw [h.flatten, Layout.chunk_flatten h.whole hj]

/-- Rows at the end of the run are rows at the end of the list. -/
theorem extend (h : b.Holds rows) {more : List (List σ)}
    (hmore : ∀ row ∈ more, row.length = b.options.layout.stride) :
    (b.extend more.flatten).Holds (rows ++ more) where
  flatten := by rw [toList_extend, h.flatten, List.flatten_append]
  whole row hrow := (List.mem_append.mp hrow).elim (h.whole row) (hmore row)

end Holds

/-! ### What a step adds -/

/-- A position that a step is given lies within the run it is read from. -/
def Step.Within : Step → Prop
  | .tryPush p | .push p => p.Within
  | .pushUndefined | .reserve _ => True

/-- The ordinates of the coordinates that a step adds: the position, if it fits, or a coordinate of
which no ordinate is known. -/
def Step.added (layout : Layout) : Step → List (List Float)
  | .tryPush p | .push p => if p.Fits layout then [p.ordinates] else []
  | .pushUndefined => [List.replicate layout.stride Ordinate.undefined]
  | .reserve _ => []

theorem Step.length_of_mem_added {t : Step} (ht : t.Within) {layout : Layout} {l : List Float}
    (hl : l ∈ t.added layout) : l.length = layout.stride := by
  have hposition {p : Position Float} (hp : p.Within)
      (hl : l ∈ if p.Fits layout then [p.ordinates] else []) : l.length = layout.stride := by
    split at hl
    · rename_i hfits
      rw [List.mem_singleton.mp hl, Position.length_ordinates hp, hfits.1]
    · cases hl
  cases t with
  | tryPush p => exact hposition ht hl
  | push p => exact hposition ht hl
  | pushUndefined => rw [List.mem_singleton.mp hl, List.length_replicate]
  | reserve n => cases hl

/-- The stored rows of coordinates that are given by their ordinates. -/
def narrowed (ls : List (List Float)) : List (List σ) :=
  ls.map (List.map Storage.narrow)

/-- Growing by no row at all. -/
theorem extend_narrowed_nil : b.extend (narrowed []).flatten = b := by
  obtain ⟨options, ordinates, room⟩ := b
  exact congrArg (Builder.mk options · room) (Array.append_empty ..)

/-- Growing by a single row. -/
theorem extend_narrowed_singleton (l : List Float) :
    b.extend (narrowed [l]).flatten = b.extend (l.map Storage.narrow) := by
  rw [narrowed, List.map_singleton, List.flatten_singleton]

/-- **A position is taken where it fits, and only there.** One that is refused leaves the builder as
it was. -/
theorem step_tryPush (hp : p.Within) :
    ((b.step (.tryPush p)).2 = .ok () ↔ p.Fits b.options.layout) ∧
      (¬p.Fits b.options.layout →
        ∃ refusal, b.step (.tryPush p) = (b, .error (.refused refusal))) := by
  by_cases hfits : p.Fits b.options.layout
  · have htaken : (b.step (.tryPush p)).2 = .ok () := by
      rw [step, tryPush_of_fits hp hfits]
    exact ⟨iff_of_true htaken hfits, fun h ↦ absurd hfits h⟩
  · obtain ⟨refusal, -, hpush⟩ := tryPush_of_not_fits hfits
    have hrefused : b.step (.tryPush p) = (b, .error (.refused refusal)) := by
      rw [step, hpush]
    exact ⟨iff_of_false (by rw [hrefused]; nofun) hfits, fun _ ↦ ⟨refusal, hrefused⟩⟩

/-- A push that is vouched for leaves what one that is looked at leaves. -/
theorem fst_step_push (b : Builder σ) (p : Position Float) :
    (b.step (.push p)).1 = (b.step (.tryPush p)).1 := by
  rw [step, step, push]
  rcases b.tryPush p with (refusal | violation) | taken <;> rfl

/-- Pushed with a check, a position adds its ordinates, or nothing where it does not fit. -/
theorem fst_step_tryPush (hp : p.Within) :
    (b.step (.tryPush p)).1 =
      b.extend (narrowed ((Step.tryPush p).added b.options.layout)).flatten := by
  by_cases hfits : p.Fits b.options.layout
  · rw [step, tryPush_of_fits hp hfits, Step.added, if_pos hfits, extend_narrowed_singleton]
  · obtain ⟨refusal, -, hpush⟩ := tryPush_of_not_fits hfits
    rw [step, hpush, Step.added, if_neg hfits, extend_narrowed_nil]

/-- Making room changes the room alone. -/
theorem exists_room_of_reserve {n : Nat} {grown : Builder σ} (h : b.reserve n = .ok grown) :
    ∃ room, grown = { b with room } := by
  obtain ⟨count, -, h⟩ := bind_eq_ok_iff.mp h
  obtain ⟨room, -, h⟩ := bind_eq_ok_iff.mp h
  exact ⟨max b.room room, (Except.ok.inj h).symm⟩

/-- **A step grows the run by what it adds**, and changes nothing else but the room. -/
theorem exists_step_eq_extend {t : Step} (ht : t.Within) :
    ∃ room, (b.step t).1 =
      { b.extend (narrowed (t.added b.options.layout)).flatten with room } := by
  cases t with
  | tryPush p => exact ⟨b.room, fst_step_tryPush ht⟩
  | push p => exact ⟨b.room, (b.fst_step_push p).trans (fst_step_tryPush ht)⟩
  | pushUndefined =>
    refine ⟨b.room, ?_⟩
    show b.pushUndefined = _
    rw [Step.added, extend_narrowed_singleton, List.map_replicate, extend, List.toArray_replicate]
    rfl
  | reserve n =>
    rw [Step.added, extend_narrowed_nil, step]
    -- reserving room fails or changes the room, and no ordinate either way
    rcases hreserve : b.reserve n with v | grown
    · exact ⟨b.room, rfl⟩
    · exact exists_room_of_reserve hreserve

/-- **What a step adds is at the end of what the builder holds.** -/
theorem holds_step {rows : List (List σ)} (h : b.Holds rows) {t : Step} (ht : t.Within) :
    (b.step t).1.options = b.options ∧
      (b.step t).1.Holds (rows ++ narrowed (t.added b.options.layout)) := by
  obtain ⟨room, hstep⟩ := exists_step_eq_extend (b := b) ht
  have hnew : ∀ row ∈ (narrowed (t.added b.options.layout) : List (List σ)),
      row.length = b.options.layout.stride := by
    intro row hrow
    obtain ⟨l, hl, rfl⟩ := List.mem_map.mp hrow
    rw [List.length_map, Step.length_of_mem_added ht hl]
  have hextend := h.extend hnew
  rw [hstep]
  exact ⟨rfl, hextend.flatten, hextend.whole⟩

/-- **After any steps, the builder holds what it began with and what they added, in order.** -/
theorem holds_run {rows : List (List σ)} (h : b.Holds rows) {steps : List Step}
    (hsteps : ∀ t ∈ steps, t.Within) :
    (b.run steps).options = b.options ∧
      (b.run steps).Holds (rows ++ narrowed (steps.flatMap (Step.added b.options.layout))) := by
  induction steps generalizing b rows with
  | nil => exact ⟨rfl, by rwa [List.flatMap_nil, narrowed, List.map_nil, List.append_nil]⟩
  | cons t rest ih =>
    obtain ⟨hoptions, hstep⟩ := holds_step h (hsteps t List.mem_cons_self)
    obtain ⟨hrest, hrun⟩ := ih hstep fun u hu ↦ hsteps u (List.mem_cons_of_mem _ hu)
    rw [hoptions] at hrest hrun
    refine ⟨hrest, ?_⟩
    rwa [List.flatMap_cons, narrowed, List.map_append, ← List.append_assoc]

/-! ### How building begins -/

omit [Storage σ] in
theorem holds_nil {b : Builder σ} (h : b.ordinates = #[]) : b.Holds [] where
  flatten := by rw [h]; rfl
  whole := nofun

/-- Room is granted where the bytes that are asked for can be addressed. -/
theorem grant_eq_ok_iff {count room : Nat} :
    grant σ count = .ok room ↔ count * Storage.bytes σ ≤ byteLimit ∧ room = count := by
  rw [grant]
  split
  · rename_i h
    exact ⟨fun hroom ↦ ⟨h, (Except.ok.inj hroom).symm⟩, fun hroom ↦ hroom.2 ▸ rfl⟩
  · rename_i h
    exact ⟨nofun, fun hroom ↦ absurd hroom.1 h⟩

/-- **Building begins with the zeros that were asked for**, if a machine word counts their ordinates
and memory has room for them, and otherwise not at all. -/
theorem zeros_eq_ok_iff {n : Nat} {options : SequenceOptions} :
    zeros n options = .ok b ↔
      (n * options.layout.stride < PackedSequence.wordCount ∧
        n * options.layout.stride * Storage.bytes σ ≤ byteLimit) ∧
      b = ⟨options, Array.replicate (n * options.layout.stride) Storage.zero,
        n * options.layout.stride⟩ := by
  constructor
  · intro h
    obtain ⟨count, hcount, h⟩ := bind_eq_ok_iff.mp h
    obtain ⟨room, hroom, h⟩ := bind_eq_ok_iff.mp h
    obtain ⟨hword, rfl⟩ := PackedSequence.counted_eq_ok_iff.mp hcount
    obtain ⟨hbytes, rfl⟩ := grant_eq_ok_iff.mp hroom
    exact ⟨⟨hword, hbytes⟩, (Except.ok.inj h).symm⟩
  · rintro ⟨⟨hword, hbytes⟩, rfl⟩
    exact bind_eq_ok_iff.mpr ⟨_, PackedSequence.counted_eq_ok_iff.mpr ⟨hword, rfl⟩,
      bind_eq_ok_iff.mpr ⟨_, grant_eq_ok_iff.mpr ⟨hbytes, rfl⟩, rfl⟩⟩

/-- How building begins: with nothing, with room only, or with coordinates of zeros. The number is
that of the coordinates it begins with. -/
inductive Begins (options : SequenceOptions) : Nat → Builder σ → Prop
  | empty : Begins options 0 (empty options)
  | withCapacity {n : Nat} {b : Builder σ} (h : withCapacity n options = .ok b) :
      Begins options 0 b
  | zeros {n : Nat} {b : Builder σ} (h : zeros n options = .ok b) : Begins options n b

/-- However building begins, each coordinate of the beginning is a row of zeros. -/
theorem Begins.holds {options : SequenceOptions} {n : Nat} (h : Begins options n b) :
    b.options = options ∧
      b.Holds (List.replicate n (List.replicate options.layout.stride Storage.zero)) := by
  cases h with
  | empty => exact ⟨rfl, holds_nil rfl⟩
  | withCapacity h =>
    obtain ⟨count, -, h⟩ := bind_eq_ok_iff.mp h
    obtain ⟨room, -, h⟩ := bind_eq_ok_iff.mp h
    obtain rfl := Except.ok.inj h
    exact ⟨rfl, holds_nil rfl⟩
  | zeros h =>
    obtain ⟨-, rfl⟩ := zeros_eq_ok_iff.mp h
    refine ⟨rfl, ?_, fun row hrow ↦ ?_⟩
    · rw [Array.toList_replicate, List.flatten_replicate_replicate]
    · rw [List.eq_of_mem_replicate hrow, List.length_replicate]

/-! ### A run of building -/

/-- **A builder only ever holds whole coordinates.** However building began, and after any steps:

* a position is taken exactly where it fits, and refused otherwise, with the builder left as it was;
* the run is as long as its coordinates take, of which there are as many as it began with and the
  steps added;
* what is finished has the options of the beginning and holds those coordinates, each at its index:
  zeros first, then what was added, in order and rounded to the storage type. -/
theorem run_holds_whole_coordinates {options : SequenceOptions} {n : Nat} {b₀ : Builder σ}
    (h₀ : Begins options n b₀) {steps : List Step} (hsteps : ∀ t ∈ steps, t.Within) :
    let b := b₀.run steps
    let added := steps.flatMap (Step.added options.layout)
    (∀ p : Position Float, p.Within →
      ((b.step (.tryPush p)).2 = .ok () ↔ p.Fits options.layout) ∧
        (¬p.Fits options.layout →
          ∃ refusal, b.step (.tryPush p) = (b, .error (.refused refusal)))) ∧
    b.ordinates.size = options.layout.stride * b.length ∧
    b.length = n + added.length ∧
    ∃ s, b.finish = .ok s ∧ s.options = options ∧ s.length = n + added.length ∧
      (∀ j < n, s.storedAt j = List.replicate options.layout.stride Storage.zero) ∧
      ∀ (j : Nat) (hj : j < added.length), s.storedAt (n + j) = added[j].map Storage.narrow := by
  intro b added
  obtain ⟨rfl, hbegin⟩ := h₀.holds
  obtain ⟨hoptions, hrun⟩ := holds_run hbegin hsteps
  have hoptions : b.options = b₀.options := hoptions
  have hlength : b.length = n + added.length := by
    rw [hrun.length_eq, List.length_append, List.length_replicate, narrowed, List.length_map]
  refine ⟨fun p hp ↦ ?_, ?_, hlength, ?_⟩
  · rw [← hoptions]
    exact step_tryPush hp
  · have hsize : b.ordinates.size = _ * b.options.layout.stride := hrun.size_eq
    rw [hsize, ← hrun.length_eq, Nat.mul_comm, hoptions]
  · obtain ⟨s, hfinish, hs, hcount, -, hstored⟩ := hrun.finish_eq
    refine ⟨s, hfinish, hs.trans hoptions, hcount.trans (hrun.length_eq.symm.trans hlength),
      fun j hj ↦ ?_, fun j hj ↦ ?_⟩
    -- the rows of the beginning come first
    · have hzeros : j < (List.replicate n
          (List.replicate b₀.options.layout.stride (Storage.zero : σ))).length := by
        rwa [List.length_replicate]
      rw [hstored j (by rw [List.length_append]; omega), List.getElem_append_left hzeros,
        List.getElem_replicate]
    -- and those that were added behind them
    · rw [hstored (n + j) (by rw [← hrun.length_eq]; show _ < b.length; omega),
        List.getElem_append_right (by rw [List.length_replicate]; omega)]
      simp only [narrowed, List.length_replicate, Nat.add_sub_cancel_left, List.getElem_map]
      rfl

/-- From one coordinate of zeros with a measure: a height is refused in the place of the measure,
and so are a pair and a list that is too short; a bare list, a coordinate in place and a coordinate
of which nothing is known are taken. -/
theorem run_holds_whole_coordinates_measured :
    let options : SequenceOptions := ⟨.xym, .retained⟩
    let steps : List Step :=
      [.tryPush (.coordinate ⟨1.0, 2.0, some 3.0, none⟩), .tryPush (.bare [4.0, 5.0, 6.0]),
        .tryPush (.bare [7.0]), .reserve 2, .pushUndefined, .tryPush (.pair .tuple 8.0 9.0),
        .tryPush (.inRun .xym #[0.0, 0.0, 0.0, 1.5, 2.5, 3.5] 1)]
    let b₀ : Builder Float := ⟨options, #[0.0, 0.0, 0.0], 3⟩
    Begins options 1 b₀ ∧ (∀ t ∈ steps, t.Within) ∧ (b₀.run steps).length = 4 ∧
      ∃ s, (b₀.run steps).finish = .ok s ∧ s.storedAt 1 = [4.0, 5.0, 6.0] ∧
        s.storedAt 3 = [1.5, 2.5, 3.5] := by
  intro options steps b₀
  have h₀ : Begins options 1 b₀ := .zeros rfl
  have hsteps : ∀ t ∈ steps, t.Within := by
    simp [steps, Step.Within, Position.Within, Layout.stride]
  obtain ⟨-, -, hlength, s, hfinish, -, -, -, hstored⟩ := run_holds_whole_coordinates h₀ hsteps
  exact ⟨h₀, hsteps, hlength, s, hfinish, hstored 0 (by decide), hstored 2 (by decide)⟩

end Builder

end Geospatial
