import Geospatial.Geodesy.LonLat

/-!
# Bearings and distances

The bearing from one place to another and the distance between them, for places close together: the
difference in longitude is shrunk by the cosine of the mean latitude, and the two differences are
then read as a vector on the plane.

**A bearing runs clockwise from north.** It lies in the turn from 0, and only rounding carries it to
the end of the turn. Two equal places have none, and the answer is a number that is no bearing. The
variant in degrees compares the degrees, so it can find two places distinct whose radians agree;
what it then converts is that number.
-/

namespace Geospatial

namespace LonLat

variable {α : Type} [Trigonometry α]

open Trigonometry

/-- The answer where there is no bearing. -/
def noBearing : α :=
  -1.0

/-- The mean radius of the Earth in metres. -/
def earthRadius : α :=
  6371008.7714

/-- The way from one place to another as a vector on the plane, eastward part first. -/
def offset (a b : LonLat α) : α × α :=
  ((b.lon - a.lon) * a.lonScale b, b.lat - a.lat)

/-- The bearing, in radians. -/
def bearing (a b : LonLat α) : α :=
  if a.lat == b.lat then
    if a.lon == b.lon then noBearing
    else if b.lon < a.lon then threeQuarterTurn
    else quarterTurn
  else
    let (east, north) := a.offset b
    let angle := atan (east / north)
    if 0.0 < north then
      if 0.0 ≤ east then angle else fullTurn + angle
    else
      pi + angle

/-- The bearing between two places in degrees, in degrees. -/
def bearingDegrees (a b : LonLat α) : α :=
  if a.lon == b.lon && a.lat == b.lat then noBearing
  else Trigonometry.toDegrees (a.toRadians.bearing b.toRadians)

/-- The distance as an angle, in radians. -/
def angularDistance (a b : LonLat α) : α :=
  let (east, north) := a.offset b
  sqrt (east * east + north * north)

/-- The length of an angle on the surface of the Earth. -/
def metres (angle : α) : α :=
  angle * earthRadius

/-- The distance between two places in degrees, in metres. -/
def distance (a b : LonLat α) : α :=
  metres (a.toRadians.angularDistance b.toRadians)

end LonLat

end Geospatial
