import Geospatial.Position

/-!
# Longitude and latitude

A place on the sphere by its two angles, and what is needed to compute with angles: the
trigonometric functions and the constants of the circle and of the Earth.

**Radians inside, degrees outside.** Every operation is defined on radians. Its variant in degrees
converts the arguments, applies the operation and converts the result back. The two directions round
separately, so going there and back need not return the same number, and two distinct angles in
degrees may share one in radians.

**Nothing is assumed of the functions.** `Trigonometry` names them and no more; what a statement
needs of them, it says.
-/

namespace Geospatial

/-- The functions and constants of trigonometry. -/
class Trigonometry (α : Type) extends Ordinate α where
  sqrt : α → α
  sin : α → α
  cos : α → α
  atan : α → α
  acos : α → α
  /-- Half a turn, in radians. -/
  pi : α
  /-- The degrees of one radian. -/
  degreesPerRadian : α

instance : Trigonometry Float where
  sqrt := Float.sqrt
  sin := Float.sin
  cos := Float.cos
  atan := Float.atan
  acos := Float.acos
  pi := 3.141592653589793
  degreesPerRadian := 57.29577951308232

namespace Trigonometry

variable {α : Type} [Trigonometry α]

/-- A full turn. -/
def fullTurn : α :=
  2.0 * pi

/-- Three quarters of a turn: due west, as a bearing. -/
def threeQuarterTurn : α :=
  3.0 * pi / 2.0

/-- A quarter of a turn: due east, as a bearing. -/
def quarterTurn : α :=
  pi / 2.0

/-- An eighth of a turn. -/
def eighthTurn : α :=
  pi / 4.0

/-- Degrees to radians; the radians of one degree are rounded first. -/
def toRadians (degrees : α) : α :=
  degrees * (pi / 180.0)

/-- Radians to degrees. -/
def toDegrees (radians : α) : α :=
  radians * degreesPerRadian

/-- The cosine that belongs to a sine, or the sine to a cosine, without its sign. It is zero where
rounding has carried the argument beyond one, and also where there is no number. -/
def complement (v : α) : α :=
  let rest := 1.0 - v * v
  sqrt (if 0.0 < rest then rest else 0.0)

/-- The nearest number between -1 and 1. -/
def clampToUnit (v : α) : α :=
  if v < -1.0 then -1.0 else if 1.0 < v then 1.0 else v

end Trigonometry

/-- A place on the sphere. -/
structure LonLat (α : Type) where
  lon : α
  lat : α

namespace LonLat

variable {α : Type}

/-- The place whose longitude and latitude are the x and y of a position. -/
def ofPosition [Ordinate α] (p : Position α) : Except Violation (LonLat α) := do
  let (lon, lat) ← p.plane
  return ⟨lon, lat⟩

variable [Trigonometry α]

def toRadians (p : LonLat α) : LonLat α :=
  ⟨Trigonometry.toRadians p.lon, Trigonometry.toRadians p.lat⟩

def toDegrees (p : LonLat α) : LonLat α :=
  ⟨Trigonometry.toDegrees p.lon, Trigonometry.toDegrees p.lat⟩

/-- The factor by which a difference in longitude shrinks half way between two latitudes. -/
def lonScale (a b : LonLat α) : α :=
  Trigonometry.cos ((a.lat + b.lat) * 0.5)

end LonLat

end Geospatial
