import Geospatial.Coordinate

/-!
# Bounds

What can be read off any box: whether it is null, which is to say that it holds no point, and its
four bounds. Measures, predicates, distance and order are all derived from these five readings, so
they are the same for a box that owns its bounds, for a rectangle and for a box that looks its
bounds up in a sequence.

**The bounds of a null box mean nothing.** Every definition below asks whether a box is null before
it looks at a bound, and answers for the null box without looking.

**Edges belong to the box.** A box covers the points on its edge, and two boxes that share no more
than an edge or a corner intersect.
-/

namespace Geospatial

/-- The readings of a box. -/
structure Bounds (α : Type) where
  isNull : Bool
  minX : α
  maxX : α
  minY : α
  maxY : α
deriving Repr

namespace Bounds

variable {α : Type} [Ordinate α]

/-! ### Measures -/

/-- The extent along x. -/
def width (a : Bounds α) : α :=
  if a.isNull then 0.0 else a.maxX - a.minX

/-- The extent along y. -/
def height (a : Bounds α) : α :=
  if a.isNull then 0.0 else a.maxY - a.minY

/-- The length of the diagonal. -/
def diameter (a : Bounds α) : α :=
  if a.isNull then 0.0 else Ordinate.hypotenuse a.width a.height

def area (a : Bounds α) : α :=
  a.width * a.height

/-- The smaller of the two extents. -/
def minExtent (a : Bounds α) : α :=
  if a.isNull then 0.0 else lesser a.width a.height

/-- The larger of the two extents. -/
def maxExtent (a : Bounds α) : α :=
  if a.isNull then 0.0 else greater a.width a.height

/-- The point halfway between the bounds on both axes. -/
def centre (a : Bounds α) : Option (Coordinate α) :=
  if a.isNull then none
  else some { x := (a.minX + a.maxX) / 2.0, y := (a.minY + a.maxY) / 2.0 }

/-! ### Points -/

/-- Whether no bound excludes the point. -/
def intersectsPoint (a : Bounds α) (x y : α) : Bool :=
  !a.isNull && !(decide (a.maxX < x) || decide (x < a.minX) || decide (a.maxY < y) ||
    decide (y < a.minY))

/-- Whether the point lies between the bounds on both axes. -/
def coversPoint (a : Bounds α) (x y : α) : Bool :=
  !a.isNull && (decide (a.minX ≤ x) && decide (x ≤ a.maxX) && decide (a.minY ≤ y) &&
    decide (y ≤ a.maxY))

/-- Containing a point and covering it are the same. -/
def containsPoint (a : Bounds α) (x y : α) : Bool :=
  a.coversPoint x y

/-! ### Two boxes -/

/-- Whether no bound keeps the two boxes apart. -/
def intersects (a b : Bounds α) : Bool :=
  !(a.isNull || b.isNull) && !(decide (a.maxX < b.minX) || decide (b.maxX < a.minX) ||
    decide (a.maxY < b.minY) || decide (b.maxY < a.minY))

def disjoint (a b : Bounds α) : Bool :=
  !a.intersects b

/-- Overlapping and intersecting are the same. -/
def overlaps (a b : Bounds α) : Bool :=
  a.intersects b

/-- Whether the second box lies within the bounds of the first. -/
def covers (a b : Bounds α) : Bool :=
  !(a.isNull || b.isNull) && (decide (a.minX ≤ b.minX) && decide (b.maxX ≤ a.maxX) &&
    decide (a.minY ≤ b.minY) && decide (b.maxY ≤ a.maxY))

/-- Containing a box and covering it are the same. -/
def contains (a b : Bounds α) : Bool :=
  a.covers b

/-- Equality of boxes: null boxes equal each other and no other box, any two others are equal when
all four bounds are. -/
def equals (a b : Bounds α) : Bool :=
  if a.isNull then b.isNull
  else !b.isNull && (a.maxX == b.maxX && a.maxY == b.maxY && a.minX == b.minX && a.minY == b.minY)

/-- Whether the first box covers the second and is not equal to it. -/
def containsProperly (a b : Bounds α) : Bool :=
  !a.equals b && a.covers b

/-- The gap that the bounds leave between two boxes on one axis, zero where they leave none. -/
def gap (minA maxA minB maxB : α) : α :=
  if maxA < minB then minB - maxA
  else if maxB < minA then minA - maxB
  else 0.0

/-- The distance between the closest edges or corners. Where one axis has no gap it is the gap on
the other axis alone; to a null box it is infinite. -/
def distance (a b : Bounds α) : α :=
  if a.intersects b then 0.0
  else if a.isNull || b.isNull then Ordinate.infinity
  else
    let dx := gap a.minX a.maxX b.minX b.maxX
    let dy := gap a.minY a.maxY b.minY b.maxY
    if dx == 0.0 then dy
    else if dy == 0.0 then dx
    else Ordinate.hypotenuse dx dy

/-- The order of boxes: null ones first, the others by their lower bounds and then by their upper
bounds. Bounds that do not compare count as equal. -/
def order (a b : Bounds α) : Ordering :=
  match a.isNull, b.isNull with
  | true, true => .eq
  | true, false => .lt
  | false, true => .gt
  | false, false =>
    compareInTurn [(a.minX, b.minX), (a.minY, b.minY), (a.maxX, b.maxX), (a.maxY, b.maxY)]

/-! ### Null boxes -/

/-- Nothing intersects a null box. -/
theorem intersects_of_isNull_left {a b : Bounds α} (h : a.isNull = true) :
    a.intersects b = false := by
  simp [intersects, h]

theorem intersects_of_isNull_right {a b : Bounds α} (h : b.isNull = true) :
    a.intersects b = false := by
  simp [intersects, h]

/-- A null box covers nothing and is covered by nothing. -/
theorem covers_of_isNull_left {a b : Bounds α} (h : a.isNull = true) : a.covers b = false := by
  simp [covers, h]

theorem covers_of_isNull_right {a b : Bounds α} (h : b.isNull = true) : a.covers b = false := by
  simp [covers, h]

end Bounds

end Geospatial
