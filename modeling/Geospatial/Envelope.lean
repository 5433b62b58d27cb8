import Geospatial.Bounds

/-!
# Envelopes

An envelope owns its four bounds and can grow, shrink and move. It is null when its upper bound on x
lies below its lower one; the null envelope proper has zeros for lower and minus one for upper
bounds.

**Every change that sets bounds from outside puts them in order,** and a box that is shrunk beyond
its own size becomes the null envelope rather than an inverted box.
-/

namespace Geospatial

/-- The box between two bounds on each axis. -/
structure Envelope (α : Type) where
  minX : α
  maxX : α
  minY : α
  maxY : α
deriving Repr

namespace Envelope

variable {α : Type} [Ordinate α]

/-- The envelope without points. -/
def null : Envelope α :=
  ⟨0.0, -(1.0), 0.0, -(1.0)⟩

instance : Inhabited (Envelope α) := ⟨null⟩

/-- Null is told by x alone. -/
def isNull (e : Envelope α) : Bool :=
  decide (e.maxX < e.minX)

/-- The envelope as any box is read. -/
def bounds (e : Envelope α) : Bounds α :=
  ⟨e.isNull, e.minX, e.maxX, e.minY, e.maxY⟩

/-- The box spanned by two values on each axis, given in any order. -/
def spanning (x1 x2 y1 y2 : α) : Envelope α :=
  let (minX, maxX) := inOrder x1 x2
  let (minY, maxY) := inOrder y1 y2
  ⟨minX, maxX, minY, maxY⟩

/-- The box of a single point. -/
def ofPoint (x y : α) : Envelope α :=
  ⟨x, x, y, y⟩

/-! ### Growing -/

/-- Grows just enough to cover a point. -/
def expandToInclude (e : Envelope α) (x y : α) : Envelope α :=
  if e.isNull then ofPoint x y
  else
    { minX := if x < e.minX then x else e.minX
      maxX := if e.maxX < x then x else e.maxX
      minY := if y < e.minY then y else e.minY
      maxY := if e.maxY < y then y else e.maxY }

/-- Grows just enough to cover a box; a null box asks for nothing. -/
def expandToIncludeBounds (e : Envelope α) (b : Bounds α) : Envelope α :=
  if b.isNull then e
  else if e.isNull then ⟨b.minX, b.maxX, b.minY, b.maxY⟩
  else
    { minX := if b.minX < e.minX then b.minX else e.minX
      maxX := if e.maxX < b.maxX then b.maxX else e.maxX
      minY := if b.minY < e.minY then b.minY else e.minY
      maxY := if e.maxY < b.maxY then b.maxY else e.maxY }

/-- Grows to cover points one after the other. -/
def expandToIncludeAll (e : Envelope α) (points : List (α × α)) : Envelope α :=
  points.foldl (fun e p => e.expandToInclude p.1 p.2) e

/-- The least box that covers all points. -/
def ofPoints (points : List (α × α)) : Envelope α :=
  null.expandToIncludeAll points

/-! ### Resizing and moving -/

/-- Moves every side outward, or inward where the amount is negative. What shrinks beyond nothing on
either axis becomes null, and null stays null. -/
def expandBy (e : Envelope α) (dx dy : α) : Envelope α :=
  if e.isNull then e
  else
    let grown : Envelope α := ⟨e.minX - dx, e.maxX + dx, e.minY - dy, e.maxY + dy⟩
    if grown.maxX < grown.minX ∨ grown.maxY < grown.minY then null else grown

/-- Moves every side outward by the same amount. -/
def expandByDistance (e : Envelope α) (d : α) : Envelope α :=
  e.expandBy d d

/-- Shifts the box; null stays where it is. -/
def translate (e : Envelope α) (dx dy : α) : Envelope α :=
  if e.isNull then e
  else spanning (e.minX + dx) (e.maxX + dx) (e.minY + dy) (e.maxY + dy)

/-! ### Readings -/

/-- Equality of boxes. -/
instance : BEq (Envelope α) where
  beq a b := a.bounds.equals b.bounds

/-- The four bounds as they stand, null or not. -/
def text (e : Envelope Float) : String :=
  "Env[" ++ Decimal.shortestText e.minX ++ " : " ++ Decimal.shortestText e.maxX ++ ", " ++
    Decimal.shortestText e.minY ++ " : " ++ Decimal.shortestText e.maxY ++ "]"

@[simp] theorem bounds_isNull (e : Envelope α) : e.bounds.isNull = e.isNull := rfl

@[simp] theorem bounds_minX (e : Envelope α) : e.bounds.minX = e.minX := rfl

@[simp] theorem bounds_maxX (e : Envelope α) : e.bounds.maxX = e.maxX := rfl

@[simp] theorem bounds_minY (e : Envelope α) : e.bounds.minY = e.minY := rfl

@[simp] theorem bounds_maxY (e : Envelope α) : e.bounds.maxY = e.maxY := rfl

@[simp] theorem expandToIncludeAll_nil (e : Envelope α) : e.expandToIncludeAll [] = e := rfl

@[simp] theorem expandToIncludeAll_cons (e : Envelope α) (p : α × α) (ps : List (α × α)) :
    e.expandToIncludeAll (p :: ps) = (e.expandToInclude p.1 p.2).expandToIncludeAll ps := rfl

/-- Points can be taken in two goes. -/
theorem expandToIncludeAll_append (e : Envelope α) (ps qs : List (α × α)) :
    e.expandToIncludeAll (ps ++ qs) = (e.expandToIncludeAll ps).expandToIncludeAll qs :=
  List.foldl_append

end Envelope

namespace Bounds

variable {α : Type} [Ordinate α]

/-- An envelope of its own with the same bounds. -/
def toEnvelope (a : Bounds α) : Envelope α :=
  if a.isNull then .null else .spanning a.minX a.maxX a.minY a.maxY

/-- The box that two boxes share, null where they share none. -/
def intersection (a b : Bounds α) : Envelope α :=
  if a.isNull || b.isNull || !a.intersects b then .null
  else
    .spanning (greater a.minX b.minX) (lesser a.maxX b.maxX)
      (greater a.minY b.minY) (lesser a.maxY b.maxY)

end Bounds

end Geospatial
