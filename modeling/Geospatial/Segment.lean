import Geospatial.Envelope
import Geospatial.Position

/-!
# Boxes of positions and segments

The boxes spanned by one position, by two or by many, and the predicates that ask about the box of a
segment without building it.

**The second axis is read only when the first has not decided.** A position with too few ordinates
is therefore a violation only where its missing ordinate is needed.
-/

namespace Geospatial

variable {α : Type} [Ordinate α]

namespace Envelope

/-- The box of one position. -/
def ofPosition (p : Position α) : Except Violation (Envelope α) := do
  let (x, y) ← p.plane
  return ofPoint x y

/-- The box spanned by two positions. -/
def ofPositions (p q : Position α) : Except Violation (Envelope α) := do
  let x1 ← p.x
  let x2 ← q.x
  let y1 ← p.y
  let y2 ← q.y
  return spanning x1 x2 y1 y2

/-- Grows just enough to cover a position. -/
def expandToIncludePosition (e : Envelope α) (p : Position α) : Except Violation (Envelope α) := do
  let (x, y) ← p.plane
  return e.expandToInclude x y

/-- The least box that covers all positions. -/
def collect (ps : List (Position α)) : Except Violation (Envelope α) :=
  ps.foldlM expandToIncludePosition null

end Envelope

/-- Whether `v` lies between `a` and `b`, given in any order. -/
def spanCovers (a b v : α) : Bool :=
  decide (lesser a b ≤ v) && decide (v ≤ greater a b)

/-- Whether the span between `a` and `b`, given in any order, reaches into the one from `low` to
`high`. -/
def spanMeets (a b low high : α) : Bool :=
  !(decide (high < lesser a b) || decide (greater a b < low))

/-- Whether the box spanned by `p` and `q` covers a position. -/
def segmentCovers (p q point : Position α) : Except Violation Bool := do
  if spanCovers (← p.x) (← q.x) (← point.x) then
    return spanCovers (← p.y) (← q.y) (← point.y)
  else
    return false

/-- Whether the box spanned by `p1` and `p2` intersects the one spanned by `q1` and `q2`. -/
def segmentsMeet (p1 p2 q1 q2 : Position α) : Except Violation Bool := do
  let a ← q1.x
  let b ← q2.x
  if spanMeets (← p1.x) (← p2.x) (lesser a b) (greater a b) then
    let a ← q1.y
    let b ← q2.y
    return spanMeets (← p1.y) (← p2.y) (lesser a b) (greater a b)
  else
    return false

namespace Bounds

/-- Whether the box spanned by `p` and `q` intersects this one. Against a null box nothing is
read. -/
def intersectsSegment (a : Bounds α) (p q : Position α) : Except Violation Bool := do
  if a.isNull then
    return false
  else if spanMeets (← p.x) (← q.x) a.minX a.maxX then
    return spanMeets (← p.y) (← q.y) a.minY a.maxY
  else
    return false

def intersectsPosition (a : Bounds α) (p : Position α) : Except Violation Bool := do
  let (x, y) ← p.plane
  return a.intersectsPoint x y

def coversPosition (a : Bounds α) (p : Position α) : Except Violation Bool := do
  let (x, y) ← p.plane
  return a.coversPoint x y

/-- Containing a position and covering it are the same. -/
def containsPosition (a : Bounds α) (p : Position α) : Except Violation Bool :=
  a.coversPosition p

end Bounds

end Geospatial
