import Geospatial.Digest
import Geospatial.Sequence

/-!
# Extrema and indexed boxes

A box over a sequence can be known by where its bounds stand instead of by what they are. `Extrema`
holds four indices, one for the coordinate that realizes each bound; `IndexedBox` reads the bounds
through them, and so changes with the sequence.

**The first extremum wins.** A later coordinate takes over only when it is strictly beyond the one
recorded, so among equal extreme values the earliest is kept.

**Indices may go stale.** Nothing ties the four numbers to the sequence they were found in. Attached
to another one, or to one that has been written to, they report what now stands at their places, and
an index past the end is a violation.
-/

namespace Geospatial

/-- The indices of the coordinates that realize the four bounds. -/
structure Extrema where
  minX : Nat
  minY : Nat
  maxX : Nat
  maxY : Nat
deriving DecidableEq, Repr

/-- An extreme value and the index at which it was found. -/
structure Extreme (α : Type) where
  index : Nat
  value : α

/-- The extreme values of the points seen so far. -/
structure Extremes (α : Type) where
  minX : Extreme α
  minY : Extreme α
  maxX : Extreme α
  maxY : Extreme α

namespace Extremes

variable {α : Type}

/-- With a single point seen, it is extreme in every direction. -/
def ofPoint (i : Nat) (p : α × α) : Extremes α :=
  ⟨⟨i, p.1⟩, ⟨i, p.2⟩, ⟨i, p.1⟩, ⟨i, p.2⟩⟩

/-- Takes one more point into account. -/
def extend [Ordinate α] (s : Extremes α) (i : Nat) (p : α × α) : Extremes α where
  minX := if p.1 < s.minX.value then ⟨i, p.1⟩ else s.minX
  minY := if p.2 < s.minY.value then ⟨i, p.2⟩ else s.minY
  maxX := if s.maxX.value < p.1 then ⟨i, p.1⟩ else s.maxX
  maxY := if s.maxY.value < p.2 then ⟨i, p.2⟩ else s.maxY

/-- Takes a list of points into account, the first of which has the given index. -/
def extendFrom [Ordinate α] (s : Extremes α) (i : Nat) : List (α × α) → Extremes α
  | [] => s
  | p :: rest => (s.extend i p).extendFrom (i + 1) rest

def indices (s : Extremes α) : Extrema :=
  ⟨s.minX.index, s.minY.index, s.maxX.index, s.maxY.index⟩

end Extremes

namespace Extrema

variable {α : Type} [Ordinate α]

/-- The extrema of a list of points, none if it is empty. -/
def scan : List (α × α) → Option Extrema
  | [] => none
  | p :: rest => some ((Extremes.ofPoint 0 p).extendFrom 1 rest).indices

@[simp] theorem scan_eq_none_iff {points : List (α × α)} : scan points = none ↔ points = [] := by
  cases points <;> simp [scan]

end Extrema

/-- A box whose bounds are read through a sequence, null without indices. -/
structure IndexedBox (α : Type) where
  sequence : Sequence α
  indices : Option Extrema

namespace IndexedBox

variable {α : Type} [Ordinate α]

/-- Scans a sequence for its extrema. An empty one gives the null box. -/
def ofSequence (s : Sequence α) : Except Violation (IndexedBox α) := do
  return ⟨s, Extrema.scan (← s.points)⟩

/-- Reads the bounds of a sequence at given indices. -/
def attach (ix : Extrema) (s : Sequence α) : IndexedBox α :=
  ⟨s, some ix⟩

def isNull (b : IndexedBox α) : Bool :=
  b.indices.isNone

/-- Reads at an index, if there is one. -/
def read (b : IndexedBox α) (place : Extrema → Nat) (axis : Nat → Except Violation α) :
    Except Violation α :=
  match b.indices with
  | none => .ok Ordinate.undefined
  | some ix => axis (place ix)

def minX (b : IndexedBox α) : Except Violation α :=
  b.read (·.minX) b.sequence.x

def maxX (b : IndexedBox α) : Except Violation α :=
  b.read (·.maxX) b.sequence.x

def minY (b : IndexedBox α) : Except Violation α :=
  b.read (·.minY) b.sequence.y

def maxY (b : IndexedBox α) : Except Violation α :=
  b.read (·.maxY) b.sequence.y

/-- The box as any box is read, every bound looked up. -/
def bounds (b : IndexedBox α) : Except Violation (Bounds α) := do
  let minX ← b.minX
  let maxX ← b.maxX
  let minY ← b.minY
  let maxY ← b.maxY
  return ⟨b.isNull, minX, maxX, minY, maxY⟩

/-- The box as it is read beside another one. No bound is looked up beside a null box, since none
would be compared. -/
def boundsBeside (b : IndexedBox α) (other : Bounds α) : Except Violation (Bounds α) :=
  if other.isNull then
    .ok ⟨b.isNull, Ordinate.undefined, Ordinate.undefined, Ordinate.undefined, Ordinate.undefined⟩
  else b.bounds

/-- The indices, spelled out with the names of their fields. -/
def description (b : IndexedBox α) : String :=
  match b.indices with
  | none => "IndexedEnvelope \x7b indices: None \x7d"
  | some ix =>
    "IndexedEnvelope \x7b indices: Some(ExtremaIndices \x7b min_x: " ++ toString ix.minX ++
      ", min_y: " ++ toString ix.minY ++ ", max_x: " ++ toString ix.maxX ++
      ", max_y: " ++ toString ix.maxY ++ " \x7d) \x7d"

end IndexedBox

end Geospatial
