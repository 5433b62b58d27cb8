import Geospatial.Envelope
import Geospatial.Geodesy.Projection
import Geospatial.Json.Reader
import Geospatial.Packed.Options

/-!
# Values as JSON

Coordinates, envelopes, projections, options and the three enumerations have a form in JSON, and are
read back from it.

**Records.** A record is an object with a member for each field, in any order; members of other
names are skipped, and a field must not occur twice. It can also be given as the list of its fields,
in order. Only the height and the measure of a coordinate may be missing, or null.

**Numbers.** A float is written as a number, and as null where it is not finite. Whatever number is
read must be finite, and only a height or a measure can be read from null.

**Names.** A value of an enumeration is its name, or an object with null under that name.

An envelope is read field by field and nothing is put in order, so a text can give one that no
operation would.
-/

namespace Geospatial.Json

/-! ### Fields of a record -/

/-- The members with a given name. -/
def under (members : List (Option String × Json)) (name : String) : List Json :=
  (members.filter fun member => member.1 == some name).map (·.2)

/-- The values of the fields with the given names, none where a field is missing. -/
def fields? (names : List String) : Json → Option (List (Option Json))
  | .object members =>
    if members.all fun member => member.1.isSome then
      names.mapM fun name =>
        match under members name with
        | [] => some none
        | [v] => some (some v)
        | _ => none
    else none
  | .array items =>
    if items.length ≤ names.length then
      some (items.map some ++ List.replicate (names.length - items.length) none)
    else none
  | _ => none

/-- A finite float. -/
def float? : Json → Option Float
  | .number n =>
    let x := n.toFloat
    if x.isInf then none else some x
  | _ => none

/-- A field that may be missing or null. -/
def optional? (read : Json → Option Float) : Option Json → Option (Option Float)
  | none => some none
  | some .null => some none
  | some v => (read v).map some

/-- The name of a value of an enumeration. -/
def name : Json → Option String
  | .string text => text
  | .object [(text, .null)] => text
  | _ => none

/-- The value of an enumeration with the name that is read. -/
def named? {β : Type} (values : List β) (text : β → String) (v : Json) : Option β := do
  let name ← v.name
  values.find? fun value => text value == name

/-! ### Enumerations -/

def ofLayout (d : Layout) : Json :=
  ofText d.text

def layout? : Json → Option Layout :=
  named? [.xy, .xyz, .xym, .xyzm] Layout.text

def ofCachePolicy (p : CachePolicy) : Json :=
  ofText p.text

def cachePolicy? : Json → Option CachePolicy :=
  named? [.retained, .reclaimable, .disabled] CachePolicy.text

def ofLinePosition (p : LinePosition) : Json :=
  ofText p.text

def linePosition? : Json → Option LinePosition :=
  named? [.outsideStart, .outsideEnd, .inside] LinePosition.text

@[simp] theorem layout?_ofLayout (d : Layout) : layout? (ofLayout d) = some d := by
  cases d <;> rfl

@[simp] theorem cachePolicy?_ofCachePolicy (p : CachePolicy) :
    cachePolicy? (ofCachePolicy p) = some p := by
  cases p <;> rfl

@[simp] theorem linePosition?_ofLinePosition (p : LinePosition) :
    linePosition? (ofLinePosition p) = some p := by
  cases p <;> rfl

/-! ### Records -/

def ofCoordinate (c : Coordinate Float) : Json :=
  ofMembers ([("x", ofFloat c.x), ("y", ofFloat c.y)] ++
    (c.z.map fun z => ("z", ofFloat z)).toList ++ (c.m.map fun m => ("m", ofFloat m)).toList)

def coordinate? (v : Json) : Option (Coordinate Float) := do
  match ← v.fields? ["x", "y", "z", "m"] with
  | [some x, some y, z, m] =>
    return {
      x := ← x.float?
      y := ← y.float?
      z := ← optional? float? z
      m := ← optional? float? m }
  | _ => none

def ofEnvelope (e : Envelope Float) : Json :=
  ofMembers [("min_x", ofFloat e.minX), ("max_x", ofFloat e.maxX), ("min_y", ofFloat e.minY),
    ("max_y", ofFloat e.maxY)]

def envelope? (v : Json) : Option (Envelope Float) := do
  match ← v.fields? ["min_x", "max_x", "min_y", "max_y"] with
  | [some minX, some maxX, some minY, some maxY] =>
    return {
      minX := ← minX.float?
      maxX := ← maxX.float?
      minY := ← minY.float?
      maxY := ← maxY.float? }
  | _ => none

def ofLineProjection (p : LineProjection Float) : Json :=
  ofMembers [("position", ofLinePosition p.position), ("lon", ofFloat p.lon),
    ("lat", ofFloat p.lat)]

def lineProjection? (v : Json) : Option (LineProjection Float) := do
  match ← v.fields? ["position", "lon", "lat"] with
  | [some position, some lon, some lat] =>
    return { position := ← position.linePosition?, lon := ← lon.float?, lat := ← lat.float? }
  | _ => none

def ofSequenceOptions (o : SequenceOptions) : Json :=
  ofMembers [("dim", ofLayout o.layout), ("cache", ofCachePolicy o.cache)]

def sequenceOptions? (v : Json) : Option SequenceOptions := do
  match ← v.fields? ["dim", "cache"] with
  | [some dim, some cache] => return { layout := ← dim.layout?, cache := ← cache.cachePolicy? }
  | _ => none

end Geospatial.Json
