import Geospatial.Layout

/-!
# Columns of fixed-size lists

A table keeps coordinates in a column whose rows are lists of one fixed size. The lists of all rows
stand one after the other in the column of their cells, the child, which has a name of its own. A
row can be missing, and so can a cell; where a cell is missing, there is still a number stored in
its slot.

**Rows and cells move together.** A slice keeps some of the rows and the cells that belong to them.
Cells past the last row belong to none; a slice drops them.
-/

namespace Geospatial

/-- A slot for a number. -/
structure Cell where
  stored : Float
  /-- The number is there; otherwise the slot is missing, whatever is stored in it. -/
  valid : Bool := true

/-- The cells of a column. -/
inductive Cells where
  | float64 (slots : List Cell)
  /-- Cells of some other type, known by their number. -/
  | other (count : Nat)

namespace Cells

def count : Cells → Nat
  | .float64 slots => slots.length
  | .other count => count

/-- The cells from an offset on, as many as there are up to a length. -/
def slice (offset length : Nat) : Cells → Cells
  | .float64 slots => .float64 ((slots.drop offset).take length)
  | .other count => .other (min length (count - offset))

@[simp] theorem count_slice (offset length : Nat) (cells : Cells) :
    (cells.slice offset length).count = min length (cells.count - offset) := by
  cases cells <;> simp [slice, count]

/-- A slice within a slice is a slice. -/
theorem slice_slice {offset length i n : Nat} (h : i + n ≤ length) (cells : Cells) :
    (cells.slice offset length).slice i n = cells.slice (offset + i) n := by
  cases cells with
  | float64 slots =>
    have hn : min n (length - i) = n := Nat.min_eq_left (by omega)
    simp only [slice, List.drop_take, List.drop_drop, List.take_take, hn]
  | other count =>
    simp only [slice, other.injEq]
    omega

end Cells

/-- A column of lists of one size. -/
structure ListColumn where
  /-- The name of the child. -/
  field : String
  /-- Whether cells may be missing. -/
  nullable : Bool
  listSize : Nat
  cells : Cells
  /-- For each row, whether it is there. -/
  rows : List Bool
  /-- Every row has its cells. -/
  rows_le : rows.length * listSize ≤ cells.count

namespace ListColumn

/-- The column with as many rows as there are cells for, where `valid` tells which of them are
there. -/
def ofCells (field : String) (nullable : Bool) (listSize : Nat) (cells : Cells)
    (valid : Nat → Bool) : ListColumn where
  field := field
  nullable := nullable
  listSize := listSize
  cells := cells
  rows := (List.range (cells.count / listSize)).map valid
  rows_le := by
    rw [List.length_map, List.length_range]
    exact Nat.div_mul_le_self ..

/-- The number of rows. -/
def length (c : ListColumn) : Nat :=
  c.rows.length

/-- The number of missing rows. -/
def nullCount (c : ListColumn) : Nat :=
  c.rows.count false

/-- The rows from an offset on, as many as there are up to a length. -/
def slice (c : ListColumn) (offset length : Nat) : ListColumn :=
  { c with
    cells := c.cells.slice (offset * c.listSize) (length * c.listSize)
    rows := (c.rows.drop offset).take length
    rows_le := by
      have hleft := Nat.mul_le_mul_right c.listSize
        (Nat.min_le_left length (c.rows.length - offset))
      have hright := Nat.mul_le_mul_right c.listSize
        (Nat.min_le_right length (c.rows.length - offset))
      rw [Nat.sub_mul] at hright
      rw [List.length_take, List.length_drop, Cells.count_slice]
      exact Nat.le_min.mpr ⟨hleft, Nat.le_trans hright (Nat.sub_le_sub_right c.rows_le _)⟩ }

@[simp] theorem length_slice (c : ListColumn) (offset length : Nat) :
    (c.slice offset length).length = min length (c.length - offset) := by
  simp [slice, ListColumn.length]

/-- A slice within a slice is a slice. -/
theorem slice_slice {offset length i n : Nat} (h : i + n ≤ length) (c : ListColumn) :
    (c.slice offset length).slice i n = c.slice (offset + i) n := by
  have hn : min n (length - i) = n := Nat.min_eq_left (by omega)
  have hcells : i * c.listSize + n * c.listSize ≤ length * c.listSize := by
    rw [← Nat.add_mul]
    exact Nat.mul_le_mul_right _ h
  simp only [slice, Cells.slice_slice hcells, List.drop_take, List.drop_drop, List.take_take, hn,
    Nat.add_mul]

end ListColumn

end Geospatial
