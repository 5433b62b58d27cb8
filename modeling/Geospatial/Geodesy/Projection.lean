import Geospatial.Geodesy.LonLat

/-!
# Projection onto an arc

The place on an arc that is nearest to a given one. Along a meridian that is a matter of latitudes.
Along any other arc it is the foot of the perpendicular, solved on the sphere.

**Before, within, past.** A foot before the start or past the end of the arc is answered by that
endpoint, exactly. Off the meridians only the longitude decides, so an arc is expected to run
eastward.

**Where the solution divides.** The cosine of the arc from the start to the place, the sine of the
arc itself, the tangent of the arc to the foot, the cosine of the latitude of the end, the sum under
the tangent of the foot's longitude, and the sine of that longitude are divisors; no case is made of
their being zero.
-/

namespace Geospatial

/-- Where the foot of a perpendicular fell. -/
inductive LinePosition where
  /-- Before the start. -/
  | outsideStart
  /-- Past the end. -/
  | outsideEnd
  | inside
deriving DecidableEq, Repr

/-- The position's name. -/
def LinePosition.text : LinePosition → String
  | .outsideStart => "outside_start"
  | .outsideEnd => "outside_end"
  | .inside => "inside"

/-- A place that was projected onto an arc. -/
structure LineProjection (α : Type) where
  position : LinePosition
  lon : α
  lat : α

namespace LineProjection

variable {α : Type}

/-- The given place, found in the given position. -/
def ofPlace (position : LinePosition) (p : LonLat α) : LineProjection α :=
  ⟨position, p.lon, p.lat⟩

def place (p : LineProjection α) : LonLat α :=
  ⟨p.lon, p.lat⟩

/-- The place as a coordinate, with the longitude as its x. -/
def coordinate (p : LineProjection α) : Coordinate α where
  x := p.lon
  y := p.lat

def isInside (p : LineProjection α) : Bool :=
  p.position == .inside

def toDegrees [Trigonometry α] (p : LineProjection α) : LineProjection α :=
  ofPlace p.position p.place.toDegrees

end LineProjection

namespace LonLat

variable {α : Type} [Trigonometry α]

open Trigonometry

/-- The cosine of the latitude, by way of its sine. -/
def cosLat (p : LonLat α) : α :=
  complement (sin p.lat)

/-- The cosine of the arc between two places. -/
def cosArc (a b : LonLat α) : α :=
  sin a.lat * sin b.lat + a.cosLat * b.cosLat * cos (b.lon - a.lon)

end LonLat

/-- The arc between two places, in radians. -/
structure Arc (α : Type) where
  start : LonLat α
  stop : LonLat α

namespace Arc

variable {α : Type} [Trigonometry α]

open Trigonometry

def toRadians (a : Arc α) : Arc α :=
  ⟨a.start.toRadians, a.stop.toRadians⟩

/-! ### Along a meridian -/

/-- The nearest latitude on a piece of a meridian, and where it stands. -/
def alongMeridian (start stop lat : α) : LinePosition × α :=
  if stop < start then
    if start < lat then (.outsideStart, start)
    else if lat < stop then (.outsideEnd, stop)
    else (.inside, lat)
  else
    if lat < start then (.outsideStart, start)
    else if stop < lat then (.outsideEnd, stop)
    else (.inside, lat)

/-! ### Along any other arc -/

/-- How far east the end lies of the start. -/
def width (a : Arc α) : α :=
  a.stop.lon - a.start.lon

/-- The cosine of the arc. -/
def cosine (a : Arc α) : α :=
  a.start.cosArc a.stop

/-- The sine of the arc. -/
def sine (a : Arc α) : α :=
  complement a.cosine

/-- The sine of the difference in longitude, by way of its cosine. -/
def sinWidth (a : Arc α) : α :=
  complement (cos a.width)

/-- The tangent of the arc from the start to the foot. -/
def tanFoot (a : Arc α) (p : LonLat α) : α :=
  (p.cosArc a.stop / a.start.cosArc p - a.cosine) / a.sine

/-- The tangent of the difference in longitude from the start to the foot. -/
def tanOffset (a : Arc α) (p : LonLat α) : α :=
  a.sinWidth /
    (a.start.cosLat / a.stop.cosLat * (a.sine / a.tanFoot p - a.cosine) + cos a.width)

/-- How far east the foot lies of the start. -/
def offset (a : Arc α) (p : LonLat α) : α :=
  atan (a.tanOffset p)

/-- The cosine of the latitude of the foot. -/
def cosFootLat (a : Arc α) (p : LonLat α) : α :=
  a.sinWidth / sin (a.offset p) * sin (atan (a.tanFoot p)) / a.sine * a.stop.cosLat

/-- The latitude of the foot, which is never negative. -/
def footLat (a : Arc α) (p : LonLat α) : α :=
  acos (clampToUnit (a.cosFootLat p))

/-! ### The projection -/

/-- Projects a place onto an arc, all angles in radians. -/
def project (a : Arc α) (p : LonLat α) : LineProjection α :=
  if a.start.lon == a.stop.lon then
    let (position, lat) := alongMeridian a.start.lat a.stop.lat p.lat
    ⟨position, a.start.lon, lat⟩
  else if a.offset p < 0.0 then .ofPlace .outsideStart a.start
  else if a.width < a.offset p then .ofPlace .outsideEnd a.stop
  else ⟨.inside, a.start.lon + a.offset p, a.footLat p⟩

theorem project_of_meridian {a : Arc α} (h : (a.start.lon == a.stop.lon) = true) (p : LonLat α) :
    a.project p = ⟨(alongMeridian a.start.lat a.stop.lat p.lat).1, a.start.lon,
      (alongMeridian a.start.lat a.stop.lat p.lat).2⟩ :=
  if_pos h

theorem project_off_meridian {a : Arc α} (h : (a.start.lon == a.stop.lon) = false)
    (p : LonLat α) :
    a.project p = if a.offset p < 0.0 then .ofPlace .outsideStart a.start
      else if a.width < a.offset p then .ofPlace .outsideEnd a.stop
      else ⟨.inside, a.start.lon + a.offset p, a.footLat p⟩ :=
  if_neg (Bool.eq_false_iff.mp h)

/-- Projects a place onto an arc, all angles in degrees. -/
def projectDegrees (a : Arc α) (p : LonLat α) : LineProjection α :=
  (a.toRadians.project p.toRadians).toDegrees

/-- Projects a position onto the arc between two others, read as longitudes and latitudes in
degrees. -/
def projectPosition (p start stop : Position α) : Except Violation (LineProjection α) := do
  let p ← LonLat.ofPosition p
  let start ← LonLat.ofPosition start
  let stop ← LonLat.ofPosition stop
  return projectDegrees ⟨start, stop⟩ p

end Arc

end Geospatial
