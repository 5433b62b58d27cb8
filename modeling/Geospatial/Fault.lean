import Geospatial.Layout

/-!
# What can go wrong

Two kinds of failure are kept apart. A **refusal** answers an input that does not fit, and the
caller is expected to look at it. A **violation** is a broken precondition: the caller asked for
something that it should have known not to be there, and no value is made up in its place.

Refusals can cross into the error type of the columnar tables that sequences are exchanged with, and
back. A refusal that came from there returns unwrapped; every other one travels inside.
-/

namespace Geospatial

mutual

/-- Why an input was turned down. -/
inductive Refusal where
  /-- A flat run of ordinates that ends within a coordinate. -/
  | partialCoordinate (length : Nat) (layout : Layout)
  /-- A coordinate with too many or too few ordinates. -/
  | ordinateCount (expected : Layout) (found : Nat)
  /-- A coordinate with the right number of ordinates, but other ones. -/
  | ordinateLayout (expected found : Layout)
  /-- A value of a type that the operation does not take. -/
  | incorrectType (detail : String)
  | general (detail : String)
  /-- An error of the columnar tables. -/
  | table (error : TableError)

/-- The errors of the columnar tables that concern sequences. -/
inductive TableError where
  | invalidArgument (detail : String)
  /-- A refusal of this library on its way through the tables. -/
  | external (refusal : Refusal)

end

mutual

/-- The text of a refusal. -/
def Refusal.message : Refusal → String
  | .partialCoordinate length layout =>
    s!"Packed array of length {length} does not contain an integral number of " ++
      s!"{layout.text} coordinates"
  | .ordinateCount expected found =>
    s!"Coordinate dimension must be {expected.text} for this buffer; got {found}"
  | .ordinateLayout expected found =>
    s!"Coordinate dimension must be {expected.text} for this buffer; got {found.text}"
  | .incorrectType detail => "Incorrect type passed to operation: " ++ detail
  | .general detail => "General error: " ++ detail
  | .table error => error.message

/-- The text of a table error. -/
def TableError.message : TableError → String
  | .invalidArgument detail => "Invalid argument error: " ++ detail
  | .external refusal => "External error: " ++ refusal.message

end

/-- Hands a refusal over to the tables. -/
def Refusal.toTable : Refusal → TableError
  | .table error => error
  | refusal => .external refusal

/-- Takes an error of the tables back. -/
def TableError.toRefusal (error : TableError) : Refusal :=
  .table error

/-- What came from the tables returns as it was. -/
theorem TableError.toTable_toRefusal (error : TableError) : error.toRefusal.toTable = error := rfl

/-- The two counts belong to no layout. -/
def Refusal.unsupportedCounts (size measures : Nat) : Refusal :=
  .general s!"Unsupported dimension {size} with {measures} measures"

/-- The kinds of pairs that have two ordinates and no knowledge of a layout. -/
inductive PairKind where
  | tuple
  | coord
  | point
deriving DecidableEq, Repr

/-- How messages call a pair. -/
def PairKind.text : PairKind → String
  | .tuple => "tuple"
  | .coord => "Coord"
  | .point => "Point"

/-- A precondition that the caller broke. -/
inductive Violation where
  /-- A coordinate past the end of its sequence. -/
  | noCoordinate (index length : Nat)
  /-- A third ordinate of a pair. -/
  | noOrdinate (pair : PairKind) (number : Nat)
  /-- An ordinate that no coordinate of the layout has. -/
  | notInLayout (layout : Layout) (number : Nat)
  /-- A count that a machine word cannot hold. -/
  | overflow
  /-- A place past the end of a flat run. -/
  | outside
  /-- An input that the caller vouched for was refused. -/
  | vouched (refusal : Refusal)
  /-- More room than memory can have. -/
  | oversized

/-- The text of a violation, where there is one. -/
def Violation.message? : Violation → Option String
  | .noCoordinate index length => some s!"index {index} out of bounds for length {length}"
  | .noOrdinate pair number => some s!"{pair.text} only has two ordinates; got index {number}"
  | .notInLayout .. | .overflow | .outside | .vouched _ | .oversized => none

/-- Either kind of failure. -/
inductive Failure where
  | refused (refusal : Refusal)
  | broken (violation : Violation)

/-- An operation that can only be refused, among those that can fail either way. -/
instance : MonadLift (Except Refusal) (Except Failure) where
  monadLift r := r.mapError .refused

/-- An operation that can only be misused, among those that can fail either way. -/
instance : MonadLift (Except Violation) (Except Failure) where
  monadLift r := r.mapError .broken

/-- The layout with the given counts, or the refusal that names them. -/
def Layout.ofCounts (size measures : Nat) : Except Refusal Layout :=
  match ofCounts? size measures with
  | some layout => .ok layout
  | none => .error (.unsupportedCounts size measures)

end Geospatial
