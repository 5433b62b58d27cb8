import Geospatial.Columnar.Exchange
import Geospatial.Proofs.Reading

/-!
# What an import takes over

An import asks three things of a column: its child has the name and the list size of a layout, no
row is missing, and the cells are doubles. `ofColumn_eq_ok_iff` says that nothing else is asked, and
that what comes back are the numbers in the slots of the rows, in order.

**A missing cell is not asked about.** There are two levels at which something can be missing, and
the import looks at rows alone. `Faithful` is what one would want of both levels: success exactly
where no row and no cell of a row is missing, and every ordinate a number that is there. It holds of
just those columns in which present rows have no missing cell (`faithful_iff`); in any other
admissible column the number left in a missing slot comes back as an ordinate.

Slices need no argument of their own, for a slice is a column. What is missing outside of it is not
among its rows (`admissible_slice_iff`), and its cells are those of its rows (`rowCells_slice`).
-/

namespace Geospatial

/-- Each layout has one name, and no other name is read as it. -/
theorem Layout.ofFieldName?_eq_some_iff {name : String} {d : Layout} :
    ofFieldName? name = some d ↔ name = d.fieldName := by
  constructor
  · intro h
    unfold ofFieldName? at h
    split at h <;> cases h <;> rfl
  · rintro rfl
    exact ofFieldName?_fieldName d

namespace ListColumn

variable (c : ListColumn)

/-! ### The demands -/

/-- The cells that belong to rows, where cells are doubles. -/
def rowCells : List Cell :=
  match c.cells with
  | .float64 slots => slots.take (c.length * c.listSize)
  | .other _ => []

/-- The cells are doubles. -/
def Doubles : Prop :=
  ∃ slots, c.cells = .float64 slots

/-- No row is missing. -/
def RowsPresent : Prop :=
  ∀ row ∈ c.rows, row = true

/-- No cell that belongs to a row is missing. -/
def CellsPresent : Prop :=
  ∀ cell ∈ c.rowCells, cell.valid = true

/-- The name of the child and the size of the lists are those of the layout. -/
structure Named (d : Layout) : Prop where
  field : c.field = d.fieldName
  listSize : c.listSize = d.stride

/-- What an import asks of a column. -/
structure Admissible : Prop where
  named : ∃ d, c.Named d
  rows : c.RowsPresent
  doubles : c.Doubles

variable {c}

/-- Every row has its cells, as many as the size of the lists. -/
theorem length_rowCells (h : c.Doubles) : c.rowCells.length = c.length * c.listSize := by
  obtain ⟨slots, hslots⟩ := h
  have hle : c.length * c.listSize ≤ slots.length := by
    have := c.rows_le
    rwa [hslots] at this
  rw [rowCells, hslots, List.length_take, Nat.min_eq_left hle]

/-- No row is missing exactly where none is counted. -/
theorem nullCount_eq_zero_iff : c.nullCount = 0 ↔ c.RowsPresent := by
  rw [nullCount, List.count_eq_zero]
  constructor
  · intro h row hrow
    cases row
    · exact absurd hrow h
    · rfl
  · intro h hfalse
    exact absurd (h false hfalse) Bool.false_ne_true

/-! ### One demand after the other -/

/-- The layout of a column is read off the name of its field. -/
theorem layout_eq_ok_iff {d : Layout} : c.layout = .ok d ↔ c.Named d := by
  rw [layout]
  constructor
  · intro h
    split at h
    · cases h
    next found hname =>
      split at h
      next hsize =>
        obtain rfl := Except.ok.inj h
        exact ⟨Layout.ofFieldName?_eq_some_iff.mp hname, hsize⟩
      · cases h
  · rintro ⟨hname, hsize⟩
    rw [Layout.ofFieldName?_eq_some_iff.mpr hname]
    exact if_pos hsize

/-- A column is turned down for its type alone. -/
theorem incorrectType_of_layout {r : Refusal} (h : c.layout = .error r) :
    ∃ detail, r = .incorrectType detail := by
  rw [layout] at h
  split at h
  · exact ⟨_, (Except.error.inj h).symm⟩
  · split at h
    · cases h
    · exact ⟨_, (Except.error.inj h).symm⟩

/-- The cells of a column are stored where no row is missing and they are doubles. -/
theorem stored_eq_ok_iff {l : List Float} :
    c.stored = .ok l ↔ c.RowsPresent ∧ c.Doubles ∧ l = c.rowCells.map Cell.stored := by
  rw [stored, ← nullCount_eq_zero_iff]
  by_cases hnull : c.nullCount = 0
  · rw [if_neg (not_not.mpr hnull), rowCells]
    cases hcells : c.cells with
    | float64 slots =>
      constructor
      · intro h
        exact ⟨hnull, ⟨slots, hcells⟩, (Except.ok.inj h).symm⟩
      · rintro ⟨-, -, rfl⟩
        rfl
    | other count =>
      constructor
      · intro h
        cases h
      · rintro ⟨-, ⟨slots, hslots⟩, -⟩
        cases hcells.symm.trans hslots
  · rw [if_pos hnull]
    constructor
    · intro h
      cases h
    · exact fun h ↦ absurd h.1 hnull

theorem incorrectType_of_stored {r : Refusal} (h : c.stored = .error r) :
    ∃ detail, r = .incorrectType detail := by
  rw [stored] at h
  split at h
  · exact ⟨_, (Except.error.inj h).symm⟩
  · split at h
    · cases h
    · exact ⟨_, (Except.error.inj h).symm⟩

/-! ### Slices -/

variable (c)

theorem named_slice_iff {d : Layout} (offset length : Nat) :
    (c.slice offset length).Named d ↔ c.Named d :=
  ⟨fun h ↦ ⟨h.field, h.listSize⟩, fun h ↦ ⟨h.field, h.listSize⟩⟩

theorem doubles_slice_iff (offset length : Nat) :
    (c.slice offset length).Doubles ↔ c.Doubles := by
  show (∃ slots, c.cells.slice _ _ = .float64 slots) ↔ ∃ slots, c.cells = .float64 slots
  cases c.cells with
  | float64 slots => exact ⟨fun _ ↦ ⟨_, rfl⟩, fun _ ↦ ⟨_, rfl⟩⟩
  | other count =>
    constructor
    · rintro ⟨slots, h⟩
      cases h
    · rintro ⟨slots, h⟩
      cases h

/-- The rows of a slice are those that it keeps. -/
theorem rowsPresent_slice_iff (offset length : Nat) :
    (c.slice offset length).RowsPresent ↔
      ∀ i < length, ∀ row, c.rows[offset + i]? = some row → row = true := by
  show (∀ row ∈ (c.rows.drop offset).take length, row = true) ↔ _
  constructor
  · intro h i hi row hrow
    refine h row (List.mem_iff_getElem?.mpr ⟨i, ?_⟩)
    rw [List.getElem?_take_of_lt hi, List.getElem?_drop, hrow]
  · intro h row hmem
    obtain ⟨i, hi⟩ := List.mem_iff_getElem?.mp hmem
    rw [List.getElem?_take] at hi
    split at hi
    next hlt => exact h i hlt row (List.getElem?_drop ▸ hi)
    · cases hi

/-- **Only what the slice keeps is asked about.** -/
theorem admissible_slice_iff (offset length : Nat) :
    (c.slice offset length).Admissible ↔
      (∃ d, c.Named d) ∧
        (∀ i < length, ∀ row, c.rows[offset + i]? = some row → row = true) ∧ c.Doubles := by
  rw [← rowsPresent_slice_iff, ← c.doubles_slice_iff offset length]
  simp only [← c.named_slice_iff offset length]
  exact ⟨fun h ↦ ⟨h.named, h.rows, h.doubles⟩, fun h ↦ ⟨h.1, h.2.1, h.2.2⟩⟩

/-- The cells of the rows that a slice keeps are a slice of the cells of all rows. -/
theorem rowCells_slice (offset length : Nat) :
    (c.slice offset length).rowCells =
      (c.rowCells.drop (offset * c.listSize)).take (length * c.listSize) := by
  have hkept : (c.slice offset length).length * c.listSize =
      min (length * c.listSize) (c.length * c.listSize - offset * c.listSize) := by
    rw [length_slice, ← Nat.mul_min_mul_right, Nat.sub_mul]
  show (match c.cells.slice _ _ with
    | .float64 slots => slots.take ((c.slice offset length).length * c.listSize)
    | .other _ => []) = _
  -- a slice cuts the cells to its own rows, which never reach past those of the column
  rw [hkept, rowCells]
  cases c.cells with
  | float64 slots =>
    simp only [Cells.slice, List.take_take, List.drop_take]
    congr 1
    omega
  | other count => simp only [Cells.slice, List.drop_nil, List.take_nil]

end ListColumn

namespace PackedSequence

variable {c : ListColumn} {options : SequenceOptions}

/-! ### The import -/

/-- **What is asked, and what comes back:** the numbers in the slots of the rows. -/
theorem ofColumn_eq_ok_iff {s : PackedSequence Float} :
    ofColumn c options = .ok s ↔
      c.Named s.layout ∧ c.RowsPresent ∧ c.Doubles ∧
        s.ordinates = (c.rowCells.map Cell.stored).toArray ∧
        s.cache = { policy := options.cache } := by
  rw [ofColumn, bind_eq_ok_iff]
  simp only [ListColumn.layout_eq_ok_iff, bind_eq_ok_iff, ListColumn.stored_eq_ok_iff]
  constructor
  · rintro ⟨d, hnamed, l, ⟨hrows, hdoubles, rfl⟩, hs⟩
    rw [ofStored] at hs
    split at hs
    · obtain rfl := Except.ok.inj hs
      exact ⟨hnamed, hrows, hdoubles, rfl, rfl⟩
    · cases hs
  · rintro ⟨hnamed, hrows, hdoubles, hordinates, hcache⟩
    refine ⟨s.layout, hnamed, _, ⟨hrows, hdoubles, rfl⟩, ?_⟩
    -- the sequence brings the proof that its coordinates are whole, which is what is checked here
    obtain ⟨layout, ordinates, whole, cache⟩ := s
    obtain rfl : ordinates = _ := hordinates
    obtain rfl : cache = _ := hcache
    exact dif_pos whole

/-- A column that meets the demands is taken over under the layout of its name, and of the options
only the policy counts. -/
theorem exists_ofColumn {d : Layout} (hnamed : c.Named d) (hrows : c.RowsPresent)
    (hdoubles : c.Doubles) (options : SequenceOptions) :
    ∃ s, ofColumn c options = .ok s ∧ s.options = options.withLayout d ∧
      s.ordinates = (c.rowCells.map Cell.stored).toArray := by
  -- the rows are whole coordinates, because the size of the lists is the stride
  have hwhole : (c.rowCells.map Cell.stored).toArray.size % d.stride = 0 := by
    rw [List.size_toArray, List.length_map, ListColumn.length_rowCells hdoubles,
      hnamed.listSize, Nat.mul_mod_left]
  refine ⟨⟨d, _, hwhole, { policy := options.cache }⟩, ?_, rfl, rfl⟩
  exact ofColumn_eq_ok_iff.mpr ⟨hnamed, hrows, hdoubles, rfl, rfl⟩

/-- **A column is imported exactly where it is admissible.** -/
theorem exists_ofColumn_iff : (∃ s, ofColumn c options = .ok s) ↔ c.Admissible := by
  constructor
  · rintro ⟨s, hs⟩
    obtain ⟨hnamed, hrows, hdoubles, -⟩ := ofColumn_eq_ok_iff.mp hs
    exact ⟨⟨s.layout, hnamed⟩, hrows, hdoubles⟩
  · rintro ⟨⟨d, hnamed⟩, hrows, hdoubles⟩
    obtain ⟨s, hs, -⟩ := exists_ofColumn hnamed hrows hdoubles options
    exact ⟨s, hs⟩

/-- Whatever is not taken over is of an incorrect type. -/
theorem incorrectType_of_not_admissible (h : ¬c.Admissible) :
    ∃ detail, ofColumn c options = .error (.incorrectType detail) := by
  have hnot : ∀ s, ofColumn c options ≠ .ok s :=
    fun s hs ↦ h (exists_ofColumn_iff.mp ⟨s, hs⟩)
  rw [ofColumn] at hnot ⊢
  rcases hlayout : c.layout with r | d
  · obtain ⟨detail, rfl⟩ := ListColumn.incorrectType_of_layout hlayout
    exact ⟨detail, rfl⟩
  rcases hstored : c.stored with r | l
  · obtain ⟨detail, rfl⟩ := ListColumn.incorrectType_of_stored hstored
    exact ⟨detail, rfl⟩
  · -- both demands were met, so the column was admissible
    have hnamed := ListColumn.layout_eq_ok_iff.mp hlayout
    obtain ⟨hrows, hdoubles, -⟩ := ListColumn.stored_eq_ok_iff.mp hstored
    exact absurd ⟨⟨d, hnamed⟩, hrows, hdoubles⟩ h

/-! ### Missing cells -/

/-- An import that invents nothing: it succeeds exactly where no row is missing and no cell of a
row is, refuses the type of any other column, and takes over numbers that are there, under the
layout that the name tells. -/
structure Faithful (c : ListColumn) (options : SequenceOptions) : Prop where
  accepts : (∃ s, ofColumn c options = .ok s) ↔ c.Admissible ∧ c.CellsPresent
  refuses : ¬(c.Admissible ∧ c.CellsPresent) →
    ∃ detail, ofColumn c options = .error (.incorrectType detail)
  takes : ∀ s, ofColumn c options = .ok s →
    c.field = s.layout.fieldName ∧
      ∀ v ∈ s.ordinates, ∃ cell ∈ c.rowCells, cell.valid = true ∧ cell.stored = v

/-- Where admissible columns have all their cells, nothing is invented. -/
theorem faithful_of_cellsPresent (h : c.Admissible → c.CellsPresent) : Faithful c options := by
  have hboth : c.Admissible ↔ c.Admissible ∧ c.CellsPresent :=
    ⟨fun hc ↦ ⟨hc, h hc⟩, fun hc ↦ hc.1⟩
  refine ⟨exists_ofColumn_iff.trans hboth, fun hnot ↦ ?_, fun s hs ↦ ?_⟩
  · exact incorrectType_of_not_admissible fun hc ↦ hnot (hboth.mp hc)
  · obtain ⟨hnamed, -, -, hordinates, -⟩ := ofColumn_eq_ok_iff.mp hs
    have hcells := h (exists_ofColumn_iff.mp ⟨s, hs⟩)
    refine ⟨hnamed.field, fun v hv ↦ ?_⟩
    rw [hordinates, List.mem_toArray, List.mem_map] at hv
    obtain ⟨cell, hcell, rfl⟩ := hv
    exact ⟨cell, hcell, hcells cell hcell, rfl⟩

/-- **Nothing is invented exactly where admissible columns have all their cells.** -/
theorem faithful_iff : Faithful c options ↔ (c.Admissible → c.CellsPresent) :=
  ⟨fun h hc ↦ (h.accepts.mp (exists_ofColumn_iff.mpr hc)).2, faithful_of_cellsPresent⟩

/-- **An import overlooks missing cells, and nothing else.** It succeeds exactly on the admissible
columns, refuses the type of all others, and takes over what the slots of the rows hold, under the
layout of the name. Of a slice, only the rows and cells that it keeps are asked about. -/
theorem ofColumn_overlooks_missing_cells (c : ListColumn) (options : SequenceOptions) :
    ((∃ s, ofColumn c options = .ok s) ↔ c.Admissible) ∧
    (¬c.Admissible → ∃ detail, ofColumn c options = .error (.incorrectType detail)) ∧
    (∀ s, ofColumn c options = .ok s →
      c.field = s.layout.fieldName ∧ s.options = options.withLayout s.layout ∧
        s.ordinates = (c.rowCells.map Cell.stored).toArray) ∧
    (Faithful c options ↔ (c.Admissible → c.CellsPresent)) ∧
    ∀ offset length,
      ((∃ s, ofColumn (c.slice offset length) options = .ok s) ↔
        (∃ d, c.Named d) ∧
          (∀ i < length, ∀ row, c.rows[offset + i]? = some row → row = true) ∧ c.Doubles) ∧
      (c.slice offset length).rowCells =
        (c.rowCells.drop (offset * c.listSize)).take (length * c.listSize) := by
  refine ⟨exists_ofColumn_iff, incorrectType_of_not_admissible, fun s hs ↦ ?_, faithful_iff,
    fun offset length ↦ ⟨?_, c.rowCells_slice offset length⟩⟩
  · obtain ⟨hnamed, hrows, hdoubles, -⟩ := ofColumn_eq_ok_iff.mp hs
    obtain ⟨s', hs', htaken⟩ := exists_ofColumn hnamed hrows hdoubles options
    obtain rfl := Except.ok.inj (hs.symm.trans hs')
    exact ⟨hnamed.field, htaken⟩
  · rw [exists_ofColumn_iff, c.admissible_slice_iff]

/-- Two rows, the second with a missing cell and the third cell of all. -/
def missingSecondRow : ListColumn :=
  .ofCells "xy" true 2 (.float64 [⟨1.0, true⟩, ⟨2.0, true⟩, ⟨0.0, false⟩, ⟨4.0, true⟩])
    fun _ => true

/-- The missing cell does not matter to the slice that leaves it out. -/
theorem ofColumn_overlooks_missing_cells_outside :
    Faithful (missingSecondRow.slice 0 1) default ∧
      ∃ s, ofColumn (missingSecondRow.slice 0 1) default = .ok s ∧ s.ordinates = #[1.0, 2.0] := by
  obtain ⟨-, -, htakes, hfaithful, -⟩ :=
    ofColumn_overlooks_missing_cells (missingSecondRow.slice 0 1) default
  have hcells : (missingSecondRow.slice 0 1).CellsPresent := by
    intro cell hcell
    have hkept : (missingSecondRow.slice 0 1).rowCells = [⟨1.0, true⟩, ⟨2.0, true⟩] := rfl
    rw [hkept, List.mem_pair] at hcell
    rcases hcell with rfl | rfl <;> rfl
  refine ⟨hfaithful.mpr fun _ ↦ hcells, _, rfl, ?_⟩
  exact (htakes _ rfl).2.2

/-- Of the whole column it is read as the number left in its slot. -/
theorem not_faithful_missing_cell :
    ¬Faithful missingSecondRow default ∧
      ∃ s, ofColumn missingSecondRow default = .ok s ∧ s.ordinates = #[1.0, 2.0, 0.0, 4.0] := by
  have htaken : ∃ s, ofColumn missingSecondRow default = .ok s ∧
      s.ordinates = #[1.0, 2.0, 0.0, 4.0] := ⟨_, rfl, rfl⟩
  refine ⟨fun h ↦ ?_, htaken⟩
  obtain ⟨s, hs, -⟩ := htaken
  have hcells := (h.accepts.mp ⟨s, hs⟩).2
  have hmem : (⟨0.0, false⟩ : Cell) ∈ missingSecondRow.rowCells :=
    List.mem_iff_getElem?.mpr ⟨2, rfl⟩
  exact Bool.false_ne_true (hcells _ hmem)

end PackedSequence

end Geospatial
