import Geospatial.Envelope

/-!
# Digests

A value is digested as the list of words that it feeds to a hash function. Boxes that are equal have
the same digest whatever kind they are, and so have coordinates that are equal on the plane: the two
zeros are equal, so both are fed as the positive one.
-/

namespace Geospatial

/-- One word fed to a hash function. -/
inductive Word where
  | byte (value : UInt8)
  | long (bits : UInt64)
deriving DecidableEq, Repr

/-- The word of a number, with negative zero taken for positive zero. -/
def Word.ofFloat (v : Float) : Word :=
  .long (if v == 0.0 then (0.0 : Float) else v).toBits

/-- The digest of a coordinate: its place on the plane. -/
def Coordinate.digest (c : Coordinate Float) : List Word :=
  [.ofFloat c.x, .ofFloat c.y]

/-- The digest of a box: one byte for a null box, and one byte and the four bounds for any other. -/
def Bounds.digest (a : Bounds Float) : List Word :=
  if a.isNull then [.byte 0]
  else [.byte 1, .ofFloat a.minX, .ofFloat a.maxX, .ofFloat a.minY, .ofFloat a.maxY]

/-- A set of coordinates, told apart by digest and equality. -/
structure CoordinateSet where
  members : List (Coordinate Float)

namespace CoordinateSet

def empty : CoordinateSet := ⟨[]⟩

/-- Whether a member has the same digest and is equal. -/
def contains (s : CoordinateSet) (c : Coordinate Float) : Bool :=
  s.members.any fun d => d.digest == c.digest && d == c

/-- Adds a coordinate that the set does not contain yet, and tells whether it did. -/
def insert (s : CoordinateSet) (c : Coordinate Float) : Bool × CoordinateSet :=
  if s.contains c then (false, s) else (true, ⟨s.members ++ [c]⟩)

def size (s : CoordinateSet) : Nat :=
  s.members.length

/-- What is reported of a coordinate that was inserted: whether it was new, and whether the set
contains it now. -/
structure Insertion where
  isNew : Bool
  isFound : Bool
deriving DecidableEq, Repr

/-- Adds coordinates one after the other and looks each one up right after. -/
def insertEach (s : CoordinateSet) : List (Coordinate Float) → List Insertion × CoordinateSet
  | [] => ([], s)
  | c :: rest =>
    let (isNew, grown) := s.insert c
    let (reports, final) := grown.insertEach rest
    (⟨isNew, grown.contains c⟩ :: reports, final)

/-- A coordinate that is new goes to the end; any other leaves the set as it was. -/
theorem members_insert (s : CoordinateSet) (c : Coordinate Float) :
    (s.insert c).2.members = if s.contains c then s.members else s.members ++ [c] := by
  unfold insert
  split <;> rfl

/-- Inserting tells whether the coordinate is new. -/
theorem insert_fst (s : CoordinateSet) (c : Coordinate Float) :
    (s.insert c).1 = !s.contains c := by
  unfold insert
  split <;> simp_all

theorem size_insert (s : CoordinateSet) (c : Coordinate Float) :
    (s.insert c).2.size = s.size + (if (s.insert c).1 then 1 else 0) := by
  unfold insert
  split <;> simp [size]

end CoordinateSet

end Geospatial
