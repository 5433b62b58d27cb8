import Geospatial.Envelope

/-!
# Rectangles

A rectangle is a box between two opposite corners. It is never null: its bounds are put in order
when it is made, and every rectangle holds at least a point.
-/

namespace Geospatial

/-- The box between two opposite corners. -/
structure Rect (α : Type) where
  minX : α
  minY : α
  maxX : α
  maxY : α
deriving Repr

namespace Rect

variable {α : Type}

/-- The rectangle between two corners, which need not be the lower and the upper one. -/
def ofCorners [Ordinate α] (x1 y1 x2 y2 : α) : Rect α :=
  let (minX, maxX) := inOrder x1 x2
  let (minY, maxY) := inOrder y1 y2
  ⟨minX, minY, maxX, maxY⟩

/-- The rectangle as any box is read. -/
def bounds (r : Rect α) : Bounds α :=
  ⟨false, r.minX, r.maxX, r.minY, r.maxY⟩

/-- The envelope spanned by the rectangle's corners. -/
def toEnvelope [Ordinate α] (r : Rect α) : Envelope α :=
  .spanning r.minX r.maxX r.minY r.maxY

@[simp] theorem bounds_isNull (r : Rect α) : r.bounds.isNull = false := rfl

end Rect

/-- The rectangle of an envelope that is not null. -/
def Envelope.toRect? {α : Type} [Ordinate α] (e : Envelope α) : Option (Rect α) :=
  if e.isNull then none else some (.ofCorners e.minX e.minY e.maxX e.maxY)

end Geospatial
