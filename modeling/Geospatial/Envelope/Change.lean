import Geospatial.Segment

/-!
# Changes of an envelope

An envelope over time: every way in which it can be changed, as a value. A run of changes is applied
one after the other.

**Only positions can fail.** A change that reads a position is a violation where the position has
too few ordinates, and then changes nothing. All other changes go through.
-/

namespace Geospatial

/-- One change of an envelope. -/
inductive EnvelopeChange (α : Type) where
  /-- Grow to cover a point. -/
  | coverPoint (x y : α)
  /-- Grow to cover a position. -/
  | coverPosition (p : Position α)
  /-- Grow to cover a box. -/
  | coverBox (b : Bounds α)
  /-- Grow to cover points, one after the other. -/
  | coverPoints (points : List (α × α))
  /-- Move the sides outward, by one amount on each axis. -/
  | expand (dx dy : α)
  /-- Move all sides outward by the same amount. -/
  | expandByDistance (d : α)
  /-- Shift the box. -/
  | translate (dx dy : α)
  /-- Span two values on each axis. -/
  | span (x1 x2 y1 y2 : α)
  /-- Span two positions. -/
  | spanPositions (p q : Position α)
  /-- Take over another envelope. -/
  | become (e : Envelope α)
  /-- Hold no point any more. -/
  | clear

namespace Envelope

variable {α : Type} [Ordinate α]

/-- Applies one change. -/
def change (e : Envelope α) : EnvelopeChange α → Except Violation (Envelope α)
  | .coverPoint x y => .ok (e.expandToInclude x y)
  | .coverPosition p => e.expandToIncludePosition p
  | .coverBox b => .ok (e.expandToIncludeBounds b)
  | .coverPoints points => .ok (e.expandToIncludeAll points)
  | .expand dx dy => .ok (e.expandBy dx dy)
  | .expandByDistance d => .ok (e.expandByDistance d)
  | .translate dx dy => .ok (e.translate dx dy)
  | .span x1 x2 y1 y2 => .ok (spanning x1 x2 y1 y2)
  | .spanPositions p q => ofPositions p q
  | .become other => .ok other
  | .clear => .ok null

/-- The envelopes after each of a run of changes. -/
def changes (e : Envelope α) : List (EnvelopeChange α) → Except Violation (List (Envelope α))
  | [] => .ok []
  | c :: rest => do
    let e ← e.change c
    return e :: (← e.changes rest)

end Envelope

end Geospatial
