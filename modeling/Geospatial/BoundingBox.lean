import Geospatial.Extrema

/-!
# Bounding boxes

An envelope owns its bounds and an indexed box looks them up. Either of them can be compared with
the other kind and digested, by the rules that hold of any box.

**Bounds are looked up as far as they are needed.** No bound of a null box is, and none beside one.
Equality stops at the first bounds that differ, so an index past the end is a violation only where
equality comes that far; the order and the digest look up all bounds.
-/

namespace Geospatial

/-- A box that owns its bounds, or one that looks them up in a sequence. -/
inductive BoundingBox (α : Type) where
  | envelope (e : Envelope α)
  | indexed (b : IndexedBox α)

namespace BoundingBox

variable {α : Type} [Ordinate α]

def isNull : BoundingBox α → Bool
  | envelope e => e.isNull
  | indexed b => b.isNull

def minX : BoundingBox α → Except Violation α
  | envelope e => .ok e.minX
  | indexed b => b.minX

def maxX : BoundingBox α → Except Violation α
  | envelope e => .ok e.maxX
  | indexed b => b.maxX

def minY : BoundingBox α → Except Violation α
  | envelope e => .ok e.minY
  | indexed b => b.minY

def maxY : BoundingBox α → Except Violation α
  | envelope e => .ok e.maxY
  | indexed b => b.maxY

/-- The box as any box is read, every bound looked up. -/
def bounds : BoundingBox α → Except Violation (Bounds α)
  | envelope e => .ok e.bounds
  | indexed b => b.bounds

/-- Whether two bounds are equal, the first of them looked up first. -/
def agree (bound other : Except Violation α) : Except Violation Bool := do
  return (← bound) == (← other)

/-- Two bounds to compare, the first of them looked up first. -/
def beside (bound other : Except Violation α) : Except Violation (α × α) := do
  return (← bound, ← other)

/-- Equality of boxes. -/
def equals (a b : BoundingBox α) : Except Violation Bool :=
  if a.isNull then .ok b.isNull
  else if b.isNull then .ok false
  else
    [(a.maxX, b.maxX), (a.maxY, b.maxY), (a.minX, b.minX), (a.minY, b.minY)].allM fun bounds =>
      agree bounds.1 bounds.2

/-- The order of boxes. -/
def order (a b : BoundingBox α) : Except Violation Ordering :=
  match a.isNull, b.isNull with
  | true, true => .ok .eq
  | true, false => .ok .lt
  | false, true => .ok .gt
  | false, false =>
    compareInTurn <$> [(a.minX, b.minX), (a.minY, b.minY), (a.maxX, b.maxX), (a.maxY, b.maxY)].mapM
      fun bounds => beside bounds.1 bounds.2

/-- The order of boxes, of which there are no two that do not compare. -/
def order? (a b : BoundingBox α) : Except Violation (Option Ordering) :=
  some <$> a.order b

/-- The digest of a box: one byte for a null box, and one byte and the four bounds for any other. -/
def digest (a : BoundingBox Float) : Except Violation (List Word) :=
  Bounds.digest <$> a.bounds

end BoundingBox

end Geospatial
