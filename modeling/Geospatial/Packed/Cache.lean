import Geospatial.Coordinate
import Geospatial.Packed.Options

/-!
# The kept list of points

A packed sequence builds the list of its points on demand and may keep it for the next reader.
`PointArray` is one list that was built, with an identity: two readers hold the same array when the
identities agree, and an array never changes, so whoever holds it keeps what it showed when it was
built.

**Keeping and watching.** Under the default policy the cache holds the array itself. Under
`reclaimable` it only watches it: the array is there as long as some reader holds it, which is what
the argument `held` tells, and once nobody does it is gone for good.

An empty slot means that the next reader has to build. Writing to the sequence empties the slot
before anything is written.
-/

namespace Geospatial

/-- One list of points that was built, with its identity. -/
structure PointArray where
  id : Nat
  points : List (Coordinate Float)

/-- What a cache has at hand. -/
inductive Slot where
  | empty
  /-- The array itself. -/
  | kept (array : PointArray)
  /-- An array that lives only while somebody else holds it. -/
  | watched (array : PointArray)

/-- A place for one array, and the policy by which it is filled. -/
structure PointCache where
  policy : CachePolicy
  slot : Slot := .empty

namespace PointCache

/-- The array at hand, if there is one; `held` tells which arrays readers hold. -/
def current (c : PointCache) (held : Nat → Bool) : Option PointArray :=
  match c.slot with
  | .empty => none
  | .kept array => some array
  | .watched array => if held array.id then some array else none

/-- Gives up the array at hand. -/
def release (c : PointCache) : PointCache :=
  { c with slot := .empty }

/-- The slot that a fresh array is put into. -/
def fill : CachePolicy → PointArray → Slot
  | .retained, array => .kept array
  | .reclaimable, array => .watched array
  | .disabled, _ => .empty

/-- The array at hand, or else a fresh one with the given identity and points, which the policy may
keep for the next reader. -/
def obtain (c : PointCache) (held : Nat → Bool) (id : Nat) (points : List (Coordinate Float)) :
    PointArray × PointCache :=
  match c.current held with
  | some array => (array, c)
  | none => (⟨id, points⟩, { c with slot := fill c.policy ⟨id, points⟩ })

@[simp] theorem policy_release (c : PointCache) : c.release.policy = c.policy := rfl

@[simp] theorem current_release (c : PointCache) (held : Nat → Bool) :
    c.release.current held = none := rfl

@[simp] theorem policy_obtain (c : PointCache) (held : Nat → Bool) (id : Nat)
    (points : List (Coordinate Float)) : (c.obtain held id points).2.policy = c.policy := by
  unfold obtain
  split <;> rfl

end PointCache

end Geospatial
