import Geospatial.Envelope
import Geospatial.Position

/-!
# Sequences of coordinates

The least that a sequence must offer: how many coordinates it has, their layout, and any one of
their ordinates. What else is asked of a sequence is derived from these three.

**An index past the end is a violation.** No default stands in for a coordinate that is not there.
-/

namespace Geospatial

/-- A sequence of coordinates, read ordinate by ordinate. -/
structure Sequence (α : Type) where
  size : Nat
  layout : Layout
  /-- The ordinate of the given number, of the coordinate of the given index. -/
  ordinate : Nat → Nat → Except Violation α

namespace Sequence

variable {α : Type}

def x (s : Sequence α) (i : Nat) : Except Violation α :=
  s.ordinate i 0

def y (s : Sequence α) (i : Nat) : Except Violation α :=
  s.ordinate i 1

/-- The place of a coordinate on the plane. -/
def point (s : Sequence α) (i : Nat) : Except Violation (α × α) := do
  let x ← s.x i
  let y ← s.y i
  return (x, y)

/-- The places of all coordinates, in order. -/
def points (s : Sequence α) : Except Violation (List (α × α)) :=
  (List.range s.size).mapM s.point

def isEmpty (s : Sequence α) : Bool :=
  s.size == 0

/-- Grows an envelope to cover every coordinate, one index after the other. -/
def expandEnvelope [Ordinate α] (s : Sequence α) (e : Envelope α) :
    Except Violation (Envelope α) := do
  return e.expandToIncludeAll (← s.points)

/-- The sequence of a list of coordinates, said to have the given layout. -/
def ofCoordinates (layout : Layout) (coordinates : List (Coordinate α)) : Sequence α where
  size := coordinates.length
  layout := layout
  ordinate i k := Position.ofSlot (coordinates[i]?.bind fun c => c.ordinate k)

@[simp] theorem size_ofCoordinates (layout : Layout) (coordinates : List (Coordinate α)) :
    (ofCoordinates layout coordinates).size = coordinates.length := rfl

/-- A listed coordinate is found at its index. -/
theorem point_ofCoordinates {layout : Layout} {coordinates : List (Coordinate α)} {i : Nat}
    {c : Coordinate α} (h : coordinates[i]? = some c) :
    (ofCoordinates layout coordinates).point i = .ok (c.x, c.y) := by
  simp [point, x, y, ofCoordinates, h, Coordinate.ordinate, Position.ofSlot]
  rfl

end Sequence

end Geospatial
