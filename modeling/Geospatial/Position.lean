import Geospatial.Coordinate
import Geospatial.Fault

/-!
# Positions

Anything that can be read as a place: an owned coordinate, a pair of numbers, a bare list of
numbers, or one coordinate of a flat run, in place. All of them tell how many ordinates they have;
only some know which ones.

**Reading past the last ordinate** is a violation, except for an owned coordinate, which answers
that there is no number there. `nth` never asks for what the count excludes.
-/

namespace Geospatial

/-- A value that can be read as a place. -/
inductive Position (α : Type) where
  /-- An owned coordinate, with named ordinates. -/
  | coordinate (c : Coordinate α)
  /-- Two numbers. -/
  | pair (kind : PairKind) (x y : α)
  /-- A list of numbers of which only the count is known. -/
  | bare (ordinates : List α)
  /-- The coordinate of the given index in a flat run. -/
  | inRun (layout : Layout) (run : Array α) (index : Nat)

namespace Position

variable {α : Type}

/-- The number of ordinates. -/
def count : Position α → Nat
  | .coordinate c => c.layout.stride
  | .pair .. => 2
  | .bare ordinates => ordinates.length
  | .inRun layout .. => layout.stride

/-- Which ordinates they are, where that is known. -/
def layout? : Position α → Option Layout
  | .coordinate c => some c.layout
  | .pair .. => none
  | .bare _ => none
  | .inRun layout .. => some layout

/-- A place in a flat run, which must exist. -/
def ofSlot (slot : Option α) : Except Violation α :=
  match slot with
  | some v => .ok v
  | none => .error .outside

variable [Ordinate α]

/-- The ordinate of the given number, whether or not the position has that many. -/
def ordinate : Position α → Nat → Except Violation α
  | .coordinate c, n => .ok ((c.ordinate n).getD Ordinate.undefined)
  | .pair kind x y, n =>
    match n with
    | 0 => .ok x
    | 1 => .ok y
    | n => .error (.noOrdinate kind n)
  | .bare ordinates, n => ofSlot ordinates[n]?
  | .inRun layout run index, n =>
    if n < layout.stride then ofSlot run[index * layout.stride + n]?
    else .error (.notInLayout layout n)

def x (p : Position α) : Except Violation α :=
  p.ordinate 0

def y (p : Position α) : Except Violation α :=
  p.ordinate 1

/-- Both ordinates of the plane, x first. -/
def plane (p : Position α) : Except Violation (α × α) := do
  let x ← p.x
  let y ← p.y
  return (x, y)

/-- The ordinate of the given number, if the position has that many. -/
def nth (p : Position α) (n : Nat) : Except Violation (Option α) :=
  if n < p.count then some <$> p.ordinate n else .ok none

/-- An owned coordinate with the same ordinates, where it is known which they are. A pair has those
of the plane. -/
def toCoordinate? : Position α → Except Violation (Option (Coordinate α))
  | .coordinate c => .ok (some c)
  | .pair _ x y => .ok (some { x, y })
  | .bare _ => .ok none
  | p@(.inRun layout ..) => do
    let (x, y) ← p.plane
    let z ← layout.zIndex.mapM p.ordinate
    let m ← layout.mIndex.mapM p.ordinate
    return some { x, y, z, m }

/-- An owned coordinate has its ordinates at every number, none beyond them. -/
theorem nth_coordinate (c : Coordinate α) (n : Nat) :
    (Position.coordinate c).nth n = .ok (c.ordinate n) := by
  rcases c with ⟨x, y, _ | z, _ | m⟩ <;> rcases n with _ | _ | _ | _ | n <;> rfl

@[simp] theorem plane_coordinate (c : Coordinate α) :
    (Position.coordinate c).plane = .ok (c.x, c.y) := rfl

@[simp] theorem plane_pair (kind : PairKind) (x y : α) :
    (Position.pair kind x y).plane = .ok (x, y) := rfl

end Position

end Geospatial
