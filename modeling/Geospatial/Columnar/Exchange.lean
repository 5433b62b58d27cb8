import Geospatial.Columnar.ListColumn
import Geospatial.Packed.Sequence

/-!
# Exchange with columns

A packed sequence of doubles goes into a column of lists, one row a coordinate, and comes back.

**The child's name is the layout.** On the way back the name decides, whatever layout the options
ask for, and the size of the lists must agree with it. No row may be missing. Then the cells must be
doubles; the numbers stored in their slots are taken as they are.

The first of these demands that is not met is the refusal.
-/

namespace Geospatial

namespace Layout

/-- How a column names cells of this layout. -/
def fieldName : Layout → String
  | .xy => "xy"
  | .xyz => "xyz"
  | .xym => "xym"
  | .xyzm => "xyzm"

/-- The layout of cells of the given name. -/
def ofFieldName? : String → Option Layout
  | "xy" => some .xy
  | "xyz" => some .xyz
  | "xym" => some .xym
  | "xyzm" => some .xyzm
  | _ => none

@[simp] theorem ofFieldName?_fieldName (d : Layout) : ofFieldName? d.fieldName = some d := by
  cases d <;> rfl

end Layout

namespace ListColumn

/-- The layout that the child's name tells, with which the size of the lists must agree. -/
def layout (c : ListColumn) : Except Refusal Layout :=
  match Layout.ofFieldName? c.field with
  | none => .error (.incorrectType ("Invalid interleaved field name: " ++ c.field))
  | some d =>
    if c.listSize = d.stride then .ok d
    else
      .error (.incorrectType
        s!"Expected list size {d.stride} for {d.text} coordinates, got {c.listSize}")

/-- The numbers stored in the slots of all rows, none of which may be missing. -/
def stored (c : ListColumn) : Except Refusal (List Float) :=
  if c.nullCount ≠ 0 then
    .error (.incorrectType "Packed coordinate arrays cannot hold null coordinates")
  else
    match c.cells with
    | .float64 slots => .ok ((slots.take (c.length * c.listSize)).map Cell.stored)
    | .other _ => .error (.incorrectType "Expected Float64 coordinate values")

end ListColumn

namespace PackedSequence

/-- The sequence of the rows of a column, which tells their layout; the options only choose how
points are kept. -/
def ofColumn (c : ListColumn) (options : SequenceOptions) :
    Except Refusal (PackedSequence Float) := do
  let layout ← c.layout
  let stored ← c.stored
  ofStored stored.toArray (options.withLayout layout)

/-- The ordinates as cells, none of them missing. -/
def toCells (s : PackedSequence Float) : Cells :=
  .float64 (s.values.map fun v => ⟨v, true⟩)

/-- The column with one row for each coordinate, none of them missing. -/
def toColumn (s : PackedSequence Float) : ListColumn :=
  .ofCells s.layout.fieldName false s.layout.stride s.toCells fun _ => true

@[simp] theorem layout_toColumn (s : PackedSequence Float) : s.toColumn.layout = .ok s.layout := by
  simp [toColumn, ListColumn.layout, ListColumn.ofCells]

@[simp] theorem length_toColumn (s : PackedSequence Float) : s.toColumn.length = s.length := by
  simp [toColumn, ListColumn.ofCells, ListColumn.length, toCells, Cells.count, values, length]

end PackedSequence

end Geospatial
