/-!
# Layouts

Which ordinates a coordinate has, and in which order they stand. Two ordinates of the plane come
first; a height comes before a measure where both are present.
-/

namespace Geospatial

/-- The ordinates of a coordinate, in order. -/
inductive Layout where
  | xy
  | xyz
  | xym
  | xyzm
deriving DecidableEq, Repr

namespace Layout

/-- Coordinates of the plane are the default. -/
instance : Inhabited Layout := ⟨.xy⟩

/-- The number of ordinates of a coordinate. -/
def stride : Layout → Nat
  | .xy => 2
  | .xyz => 3
  | .xym => 3
  | .xyzm => 4

/-- The number of those ordinates that are measures. -/
def measures : Layout → Nat
  | .xy | .xyz => 0
  | .xym | .xyzm => 1

def hasZ : Layout → Bool
  | .xyz | .xyzm => true
  | .xy | .xym => false

def hasM (d : Layout) : Bool :=
  0 < d.measures

/-- Where the height stands within a coordinate. -/
def zIndex (d : Layout) : Option Nat :=
  if d.hasZ then some 2 else none

/-- Where the measure stands within a coordinate. -/
def mIndex : Layout → Option Nat
  | .xy | .xyz => none
  | .xym => some 2
  | .xyzm => some 3

/-- The layout with the given number of ordinates, of which the given number are measures. -/
def ofCounts? : Nat → Nat → Option Layout
  | 2, 0 => some .xy
  | 3, 0 => some .xyz
  | 3, 1 => some .xym
  | 4, 1 => some .xyzm
  | _, _ => none

/-- The layout in which a height and a measure are present as told. -/
def ofPresence : Bool → Bool → Layout
  | false, false => .xy
  | true, false => .xyz
  | false, true => .xym
  | true, true => .xyzm

/-- The layout's name. -/
def text : Layout → String
  | .xy => "XY"
  | .xyz => "XYZ"
  | .xym => "XYM"
  | .xyzm => "XYZM"

theorem two_le_stride (d : Layout) : 2 ≤ d.stride := by
  cases d <;> decide

theorem stride_pos (d : Layout) : 0 < d.stride :=
  Nat.lt_of_lt_of_le (by decide) d.two_le_stride

theorem lt_stride_of_zIndex {d : Layout} {k : Nat} (h : d.zIndex = some k) : k < d.stride := by
  cases d <;> simp_all [zIndex, hasZ, stride] <;> omega

theorem lt_stride_of_mIndex {d : Layout} {k : Nat} (h : d.mIndex = some k) : k < d.stride := by
  cases d <;> simp_all [mIndex, stride] <;> omega

/-- A layout is known from its two counts. -/
theorem ofCounts?_stride_measures (d : Layout) : ofCounts? d.stride d.measures = some d := by
  cases d <;> rfl

theorem ofPresence_hasZ_hasM (d : Layout) : ofPresence d.hasZ d.hasM = d := by
  cases d <;> rfl

end Layout

end Geospatial
