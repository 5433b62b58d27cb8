import Geospatial.Decimal.Text
import Geospatial.Layout
import Geospatial.Ordinate

/-!
# Coordinates

A place on the plane, with a height and a measure where they are known. Its layout is told by which
of the two are present.

**Only the plane counts in comparisons.** Equality and order look at x and y alone; a height or a
measure is carried along and never compared. A coordinate with an undefined x or y does not equal
itself.
-/

namespace Geospatial

/-- A place with two ordinates of the plane, and perhaps a height and a measure. -/
structure Coordinate (α : Type) where
  x : α
  y : α
  z : Option α := none
  m : Option α := none
deriving Repr

namespace Coordinate

variable {α : Type}

/-- The layout that the present ordinates make up. -/
def layout (c : Coordinate α) : Layout :=
  .ofPresence c.z.isSome c.m.isSome

/-- The ordinate of the given number, the absent ones left out of the count. -/
def ordinate (c : Coordinate α) : Nat → Option α
  | 0 => some c.x
  | 1 => some c.y
  | 2 => c.z.or c.m
  | 3 => if c.z.isSome then c.m else none
  | _ => none

/-- All ordinates, in order. -/
def ordinates (c : Coordinate α) : List α :=
  c.x :: c.y :: (c.z.toList ++ c.m.toList)

/-- Changes every ordinate that is present. -/
def map {β : Type} (f : α → β) (c : Coordinate α) : Coordinate β :=
  ⟨f c.x, f c.y, c.z.map f, c.m.map f⟩

/-- There are as many ordinates as the layout says. -/
theorem length_ordinates (c : Coordinate α) : c.ordinates.length = c.layout.stride := by
  rcases c with ⟨x, y, _ | z, _ | m⟩ <;> rfl

/-- Counting through the ordinates is indexing their list. -/
theorem ordinates_getElem? (c : Coordinate α) (n : Nat) : c.ordinates[n]? = c.ordinate n := by
  rcases c with ⟨x, y, _ | z, _ | m⟩ <;> rcases n with _ | _ | _ | _ | n <;>
    simp [ordinates, ordinate]

variable [Ordinate α]

/-- Equality on the plane. -/
instance : BEq (Coordinate α) where
  beq a b := a.x == b.x && a.y == b.y

/-- The order on the plane, by x and then by y, where the two places compare. -/
def comparePlane? (a b : Coordinate α) : Option Ordering :=
  match compare? a.x b.x with
  | some .eq => compare? a.y b.y
  | other => other

/-- Strictly before, in the order on the plane. -/
def precedes (a b : Coordinate α) : Bool :=
  a.comparePlane? b == some .lt

/-- Not before, in the order on the plane, and comparable. -/
def follows (a b : Coordinate α) : Bool :=
  (a.comparePlane? b).any (· != .lt)

/-- The straight distance on the plane. -/
def distance (a b : Coordinate α) : α :=
  Ordinate.hypotenuse (a.x - b.x) (a.y - b.y)

/-- The ordinates in parentheses. -/
def text (c : Coordinate Float) : String :=
  "(" ++ String.intercalate ", " (c.ordinates.map Decimal.shortestText) ++ ")"

end Coordinate

end Geospatial
