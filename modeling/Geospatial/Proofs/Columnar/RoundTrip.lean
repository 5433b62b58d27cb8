import Geospatial.Proofs.Columnar.Import

/-!
# There and back

A packed sequence of doubles and the column it goes into hold the same numbers. Exporting and then
importing gives the sequence back under any options; importing and then exporting gives the rows
back, where no cell of them was missing.

**Slices of slices.** Between the two, the column may be cut down any number of times. A list of
`Window`s that lie one within the other keeps the rows of a single window (`slices_eq_slice`), so it
is enough to follow one slice: row offset and row count are multiplied by the stride, and what is
imported is that part of the run.
-/

namespace Geospatial

/-! ### Windows -/

/-- Some consecutive rows. -/
structure Window where
  offset : Nat
  length : Nat

namespace Window

/-- The rows that a window keeps, counted within the rows of another. -/
def within (w v : Window) : Window :=
  ⟨w.offset + v.offset, v.length⟩

/-- Each window lies within the rows that the windows before it have left of `n` rows. -/
def Nested : Nat → List Window → Prop
  | _, [] => True
  | n, w :: ws => w.offset + w.length ≤ n ∧ Nested w.length ws

/-- The rows that are left in the end lie within the first window. -/
theorem foldl_within_le {w : Window} {ws : List Window} (h : Nested w.length ws) :
    (ws.foldl within w).offset + (ws.foldl within w).length ≤ w.offset + w.length := by
  induction ws generalizing w with
  | nil => exact Nat.le_refl _
  | cons v ws ih =>
    have hrest := ih (w := w.within v) h.2
    have hfirst := h.1
    simp only [within] at hrest
    rw [List.foldl_cons]
    simp only [within] at hrest ⊢
    omega

end Window

namespace ListColumn

/-- Takes one slice out of the other. -/
def slices (c : ListColumn) (ws : List Window) : ListColumn :=
  ws.foldl (fun c w => c.slice w.offset w.length) c

/-- **Slices of slices are a slice.** -/
theorem slices_eq_slice (c : ListColumn) {w : Window} {ws : List Window}
    (h : Window.Nested w.length ws) :
    c.slices (w :: ws) =
      c.slice (ws.foldl Window.within w).offset (ws.foldl Window.within w).length := by
  induction ws generalizing w with
  | nil => rfl
  | cons v ws ih =>
    calc c.slices (w :: v :: ws)
        = ((c.slice w.offset w.length).slice v.offset v.length).slices ws := rfl
      _ = (c.slice (w.offset + v.offset) v.length).slices ws := by rw [slice_slice h.1]
      _ = c.slices (w.within v :: ws) := rfl
      _ = _ := ih h.2

/-- The cells of one row. -/
def row (c : ListColumn) (i : Nat) : Cells :=
  c.cells.slice (i * c.listSize) c.listSize

/-- The cells of a row are found among those of all rows. -/
theorem row_of_doubles {c : ListColumn} (h : c.Doubles) {i : Nat} (hi : i < c.length) :
    c.row i = .float64 ((c.rowCells.drop (i * c.listSize)).take c.listSize) := by
  obtain ⟨slots, hslots⟩ := h
  have hroom : (i + 1) * c.listSize ≤ c.length * c.listSize := Nat.mul_le_mul_right _ hi
  rw [Nat.add_mul, Nat.one_mul] at hroom
  have hkept : min c.listSize (c.length * c.listSize - i * c.listSize) = c.listSize :=
    Nat.min_eq_left (by omega)
  rw [row, rowCells, hslots, List.drop_take, List.take_take, hkept]
  rfl

/-- The same rows, one after the other: as many, all or none of them missing in the same places, and
the same cells in each. -/
structure SameRows (c e : ListColumn) : Prop where
  listSize : c.listSize = e.listSize
  rows : c.rows = e.rows
  row : ∀ i < c.length, c.row i = e.row i

end ListColumn

namespace PackedSequence

open ListColumn

/-! ### What an export holds -/

theorem doubles_toColumn (b : PackedSequence Float) : b.toColumn.Doubles :=
  ⟨_, rfl⟩

theorem named_toColumn (b : PackedSequence Float) : b.toColumn.Named b.layout :=
  ⟨rfl, rfl⟩

theorem rows_toColumn (b : PackedSequence Float) :
    b.toColumn.rows = List.replicate b.length true := by
  have hcount : b.toCells.count = b.ordinates.size := by
    rw [toCells, Cells.count, List.length_map, values, List.length_map, Array.length_toList]
  show (List.range (b.toCells.count / b.layout.stride)).map (fun _ ↦ true) = _
  rw [List.map_const', List.length_range, hcount]
  rfl

/-- No row of an export can be refused. -/
theorem rowsPresent_toColumn (b : PackedSequence Float) : b.toColumn.RowsPresent := by
  intro row hrow
  rw [rows_toColumn] at hrow
  exact List.eq_of_mem_replicate hrow

/-- The cells of the rows are the ordinates, all of them there. -/
theorem rowCells_toColumn (b : PackedSequence Float) :
    b.toColumn.rowCells = b.ordinates.toList.map fun v ↦ ⟨v, true⟩ := by
  have hcells : b.toColumn.rowCells =
      (b.values.map fun v ↦ (⟨v, true⟩ : Cell)).take (b.toColumn.length * b.layout.stride) := rfl
  have hvalues : b.values = b.ordinates.toList := List.map_id' _
  rw [hcells, length_toColumn, length_mul_stride, hvalues]
  exact List.take_of_length_le (Nat.le_of_eq (List.length_map _))

/-- The cells in the rows are the run, ordinate by ordinate. -/
theorem map_stored_rowCells_toColumn (b : PackedSequence Float) :
    b.toColumn.rowCells.map Cell.stored = b.ordinates.toList := by
  rw [rowCells_toColumn, List.map_map]
  exact List.map_id' _

/-! ### Export, then import -/

/-- **An export comes back as it was,** under the policy of whatever options are given. -/
theorem exists_ofColumn_toColumn (b : PackedSequence Float) (options : SequenceOptions) :
    ∃ s, ofColumn b.toColumn options = .ok s ∧ s.options = options.withLayout b.layout ∧
      s.ordinates = b.ordinates := by
  obtain ⟨s, hs, hoptions, hordinates⟩ :=
    exists_ofColumn b.named_toColumn b.rowsPresent_toColumn b.doubles_toColumn options
  refine ⟨s, hs, hoptions, ?_⟩
  rw [hordinates, map_stored_rowCells_toColumn]

/-- Some rows of an export come back as that part of the run. -/
theorem exists_ofColumn_slice_toColumn (b : PackedSequence Float) (options : SequenceOptions)
    {offset length : Nat} (h : offset + length ≤ b.length) :
    ∃ s, ofColumn (b.toColumn.slice offset length) options = .ok s ∧
      s.options = options.withLayout b.layout ∧ s.length = length ∧
      s.ordinates =
        b.ordinates.extract (offset * b.layout.stride) ((offset + length) * b.layout.stride) := by
  have hnamed := (b.toColumn.named_slice_iff offset length).mpr b.named_toColumn
  have hdoubles := (b.toColumn.doubles_slice_iff offset length).mpr b.doubles_toColumn
  have hrows : (b.toColumn.slice offset length).RowsPresent :=
    fun row hrow ↦ b.rowsPresent_toColumn row (List.mem_of_mem_drop (List.mem_of_mem_take hrow))
  obtain ⟨s, hs, hoptions, hordinates⟩ := exists_ofColumn hnamed hrows hdoubles options
  have hrun : s.ordinates =
      b.ordinates.extract (offset * b.layout.stride) ((offset + length) * b.layout.stride) := by
    have hsize : b.toColumn.listSize = b.layout.stride := rfl
    apply Array.toList_inj.mp
    rw [hordinates, rowCells_slice, List.map_take, List.map_drop, map_stored_rowCells_toColumn,
      hsize, Array.toList_extract, List.extract_eq_take_drop, Nat.add_mul, Nat.add_sub_cancel_left]
  refine ⟨s, hs, hoptions, ?_, hrun⟩
  -- the part lies within the run, so it has as many coordinates as rows were kept
  have hlayout : s.layout = b.layout := congrArg SequenceOptions.layout hoptions
  have hwithin : (offset + length) * b.layout.stride ≤ b.ordinates.size :=
    Nat.le_trans (Nat.mul_le_mul_right _ h) (Nat.le_of_eq b.length_mul_stride)
  rw [PackedSequence.length, hrun, hlayout, Array.size_extract, Nat.min_eq_left hwithin,
    ← Nat.sub_mul, Nat.add_sub_cancel_left, Nat.mul_div_cancel _ b.layout.stride_pos]

/-! ### Import, then export -/

/-- **The rows come back as they were,** where none of their cells was missing. -/
theorem sameRows_toColumn {c : ListColumn} {options : SequenceOptions} {s : PackedSequence Float}
    (hs : ofColumn c options = .ok s) (hcells : c.CellsPresent) : c.SameRows s.toColumn := by
  obtain ⟨hnamed, hrows, hdoubles, hordinates, -⟩ := ofColumn_eq_ok_iff.mp hs
  have hlength : s.length = c.length := by
    rw [PackedSequence.length, hordinates, List.size_toArray, List.length_map,
      length_rowCells hdoubles, hnamed.listSize, Nat.mul_div_cancel _ s.layout.stride_pos]
  have hsame : s.toColumn.rowCells = c.rowCells := by
    -- only a cell that is present is stored as what it holds
    have hcell : ∀ cell ∈ c.rowCells, (⟨cell.stored, true⟩ : Cell) = cell := by
      intro cell hcell
      rw [← hcells cell hcell]
    rw [rowCells_toColumn, hordinates, List.map_map]
    exact (List.map_congr_left hcell).trans (List.map_id' _)
  refine ⟨hnamed.listSize, ?_, fun i hi ↦ ?_⟩
  · rw [rows_toColumn, hlength]
    exact List.eq_replicate_of_mem hrows
  · have hi' : i < s.toColumn.length := by rwa [length_toColumn, hlength]
    have hsize : s.toColumn.listSize = c.listSize := hnamed.listSize.symm
    rw [row_of_doubles hdoubles hi, row_of_doubles s.doubles_toColumn hi', hsame, hsize]

/-! ### Both ways -/

/-- **Export and import are inverse,** also under slicing: a sequence comes back from its export,
the part of it that nested windows keep comes back from the export cut down by them, and the rows
of a column come back from its import. -/
theorem ofColumn_toColumn_inverse :
    (∀ (b : PackedSequence Float) (options : SequenceOptions),
      ∃ s, ofColumn b.toColumn options = .ok s ∧ s.options = options.withLayout b.layout ∧
        s.ordinates = b.ordinates) ∧
    (∀ (b : PackedSequence Float) (options : SequenceOptions) (w : Window) (ws : List Window),
      Window.Nested b.length (w :: ws) →
      let kept := ws.foldl Window.within w
      ∃ s, ofColumn (b.toColumn.slices (w :: ws)) options = .ok s ∧
        s.options = options.withLayout b.layout ∧ s.length = kept.length ∧
        s.ordinates = b.ordinates.extract (kept.offset * b.layout.stride)
          ((kept.offset + kept.length) * b.layout.stride)) ∧
    ∀ (c : ListColumn) (options : SequenceOptions) (s : PackedSequence Float),
      ofColumn c options = .ok s → c.CellsPresent →
      c.SameRows s.toColumn ∧ s.toColumn.field = s.layout.fieldName ∧
        s.toColumn.nullable = false ∧ s.toColumn.nullCount = 0 := by
  refine ⟨exists_ofColumn_toColumn, fun b options w ws hnested ↦ ?_, fun c options s hs hcells ↦ ?_⟩
  · have hkept := Nat.le_trans (Window.foldl_within_le hnested.2) hnested.1
    rw [slices_eq_slice _ hnested.2]
    exact b.exists_ofColumn_slice_toColumn options hkept
  · exact ⟨sameRows_toColumn hs hcells, rfl, rfl, nullCount_eq_zero_iff.mpr s.rowsPresent_toColumn⟩

/-- Three coordinates with a measure, the last of which is undefined. -/
def threeMeasured : PackedSequence Float :=
  ⟨.xym, #[1.0, 2.0, 3.0, 4.0, 5.0, 6.0, 7.0, 8.0, Ordinate.undefined], rfl,
    { policy := .disabled }⟩

/-- One row of three cells, and a missing cell that belongs to none. -/
def oneRowAndMore : ListColumn :=
  .ofCells "xyz" true 3 (.float64 [⟨1.0, true⟩, ⟨2.0, true⟩, ⟨3.0, true⟩, ⟨4.0, false⟩])
    fun _ => true

/-- The second of the last two coordinates comes back out of a slice of a slice, and the row comes
back without the cell after it. -/
theorem ofColumn_toColumn_inverse_nested :
    (∃ s, ofColumn (threeMeasured.toColumn.slices [⟨1, 2⟩, ⟨1, 1⟩]) ⟨.xy, .reclaimable⟩ = .ok s ∧
      s.options = ⟨.xym, .reclaimable⟩ ∧ s.ordinates = #[7.0, 8.0, Ordinate.undefined]) ∧
    ∃ s, ofColumn oneRowAndMore default = .ok s ∧ oneRowAndMore.CellsPresent ∧
      oneRowAndMore.SameRows s.toColumn ∧ s.toColumn.nullable = false := by
  obtain ⟨-, hslices, hback⟩ := ofColumn_toColumn_inverse
  constructor
  · obtain ⟨s, hs, hoptions, -, hordinates⟩ :=
      hslices threeMeasured ⟨.xy, .reclaimable⟩ ⟨1, 2⟩ [⟨1, 1⟩] ⟨by decide, by decide, trivial⟩
    exact ⟨s, hs, hoptions, hordinates⟩
  · have hcells : oneRowAndMore.CellsPresent := by
      intro cell hcell
      have hrow : oneRowAndMore.rowCells = [⟨1.0, true⟩, ⟨2.0, true⟩, ⟨3.0, true⟩] := rfl
      rw [hrow] at hcell
      rcases List.mem_cons.mp hcell with rfl | hmem
      · rfl
      · rcases List.mem_pair.mp hmem with rfl | rfl <;> rfl
    obtain ⟨hrows, -, hnullable, -⟩ := hback oneRowAndMore default _ rfl hcells
    exact ⟨_, rfl, hcells, hrows, hnullable⟩

end PackedSequence

end Geospatial
