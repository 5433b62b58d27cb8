import Geospatial.Digest
import Geospatial.Proofs.Envelope.Growth
import Geospatial.Rect
import Geospatial.Segment

/-!
# Boxes that answer alike

`Bounds.Interchangeable` lists everything that can be asked of a box, alone or beside a third one,
and says that two boxes give the same answer to all of it. It holds of any two null boxes, whatever
stands in their bounds (`interchangeable_of_isNull`): every question is answered before a bound is
looked at.
-/

namespace Geospatial.Bounds

/-- Two boxes give the same answer to every question. -/
structure Interchangeable (a b : Bounds Float) : Prop where
  isNull : a.isNull = b.isNull
  width : a.width = b.width
  height : a.height = b.height
  diameter : a.diameter = b.diameter
  area : a.area = b.area
  minExtent : a.minExtent = b.minExtent
  maxExtent : a.maxExtent = b.maxExtent
  centre : a.centre = b.centre
  intersectsPoint (x y : Float) : a.intersectsPoint x y = b.intersectsPoint x y
  coversPoint (x y : Float) : a.coversPoint x y = b.coversPoint x y
  containsPoint (x y : Float) : a.containsPoint x y = b.containsPoint x y
  intersectsPosition (p : Position Float) : a.intersectsPosition p = b.intersectsPosition p
  coversPosition (p : Position Float) : a.coversPosition p = b.coversPosition p
  containsPosition (p : Position Float) : a.containsPosition p = b.containsPosition p
  intersectsSegment (p q : Position Float) : a.intersectsSegment p q = b.intersectsSegment p q
  intersects (c : Bounds Float) : a.intersects c = b.intersects c ∧ c.intersects a = c.intersects b
  disjoint (c : Bounds Float) : a.disjoint c = b.disjoint c ∧ c.disjoint a = c.disjoint b
  overlaps (c : Bounds Float) : a.overlaps c = b.overlaps c ∧ c.overlaps a = c.overlaps b
  covers (c : Bounds Float) : a.covers c = b.covers c ∧ c.covers a = c.covers b
  contains (c : Bounds Float) : a.contains c = b.contains c ∧ c.contains a = c.contains b
  equals (c : Bounds Float) : a.equals c = b.equals c ∧ c.equals a = c.equals b
  containsProperly (c : Bounds Float) :
    a.containsProperly c = b.containsProperly c ∧ c.containsProperly a = c.containsProperly b
  distance (c : Bounds Float) : a.distance c = b.distance c ∧ c.distance a = c.distance b
  order (c : Bounds Float) : a.order c = b.order c ∧ c.order a = c.order b
  intersection (c : Bounds Float) :
    a.intersection c = b.intersection c ∧ c.intersection a = c.intersection b
  toEnvelope : a.toEnvelope = b.toEnvelope
  digest : a.digest = b.digest
  grown (e : Envelope Float) : e.expandToIncludeBounds a = e.expandToIncludeBounds b

theorem Interchangeable.refl (a : Bounds Float) : a.Interchangeable a := by
  constructor
  all_goals intros
  all_goals first | exact rfl | exact ⟨rfl, rfl⟩

section Null

variable {α : Type} [Ordinate α] {a b : Bounds α}

/-- A null box has no width, and no other extent either. -/
theorem width_of_isNull (h : a.isNull = true) : a.width = 0.0 :=
  if_pos h

theorem height_of_isNull (h : a.isNull = true) : a.height = 0.0 :=
  if_pos h

theorem diameter_of_isNull (h : a.isNull = true) : a.diameter = 0.0 :=
  if_pos h

theorem minExtent_of_isNull (h : a.isNull = true) : a.minExtent = 0.0 :=
  if_pos h

theorem maxExtent_of_isNull (h : a.isNull = true) : a.maxExtent = 0.0 :=
  if_pos h

theorem centre_of_isNull (h : a.isNull = true) : a.centre = none :=
  if_pos h

/-- Whatever its bounds, it is converted to the one canonical null envelope. -/
theorem toEnvelope_of_isNull (h : a.isNull = true) : a.toEnvelope = .null :=
  if_pos h

/-- Against a null box no position is read. -/
theorem intersectsSegment_of_isNull (h : a.isNull = true) (p q : Position α) :
    a.intersectsSegment p q = .ok false :=
  if_pos h

/-- The area of a null box is computed from two zeros. -/
theorem area_of_isNull (h : a.isNull = true) : a.area = (0.0 : α) * 0.0 := by
  rw [area, width_of_isNull h, height_of_isNull h]

theorem intersectsPoint_of_isNull (h : a.isNull = true) (x y : α) :
    a.intersectsPoint x y = false := by
  rw [intersectsPoint, h]
  rfl

theorem coversPoint_of_isNull (h : a.isNull = true) (x y : α) : a.coversPoint x y = false := by
  rw [coversPoint, h]
  rfl

/-- A null box equals the null boxes and no others. -/
theorem equals_of_isNull_left (h : a.isNull = true) : a.equals b = b.isNull :=
  if_pos h

theorem equals_of_isNull_right (h : b.isNull = true) : a.equals b = a.isNull := by
  rw [equals, h]
  cases a.isNull <;> rfl

/-- A null box contains nothing properly. -/
theorem containsProperly_of_isNull_left (h : a.isNull = true) : a.containsProperly b = false := by
  rw [containsProperly, covers_of_isNull_left h, Bool.and_false]

/-- And nothing contains it properly. -/
theorem containsProperly_of_isNull_right (h : b.isNull = true) :
    a.containsProperly b = false := by
  rw [containsProperly, covers_of_isNull_right h, Bool.and_false]

/-- To a null box it is infinitely far. -/
theorem distance_of_isNull_left (h : a.isNull = true) : a.distance b = Ordinate.infinity := by
  rw [distance, intersects_of_isNull_left h, h]
  rfl

theorem distance_of_isNull_right (h : b.isNull = true) : a.distance b = Ordinate.infinity := by
  rw [distance, intersects_of_isNull_right h, h, Bool.or_true]
  rfl

/-- A null box comes before every one that is not null. -/
theorem order_of_isNull_left (h : a.isNull = true) :
    a.order b = if b.isNull then .eq else .lt := by
  rw [order, h]
  cases b.isNull <;> rfl

theorem order_of_isNull_right (h : b.isNull = true) :
    a.order b = if a.isNull then .eq else .gt := by
  rw [order, h]
  cases a.isNull <;> rfl

theorem intersection_of_isNull_left (h : a.isNull = true) : a.intersection b = .null := by
  rw [intersection, h]
  rfl

theorem intersection_of_isNull_right (h : b.isNull = true) : a.intersection b = .null := by
  rw [intersection, h, Bool.or_true]
  rfl

end Null

/-- One byte tells a null box; no bound is digested. -/
theorem digest_of_isNull {a : Bounds Float} (h : a.isNull = true) : a.digest = [.byte 0] :=
  if_pos h

/-- **The bounds of a null box are never seen.** -/
theorem interchangeable_of_isNull {a b : Bounds Float} (ha : a.isNull = true)
    (hb : b.isNull = true) : a.Interchangeable b where
  isNull := by rw [ha, hb]
  width := by rw [width_of_isNull ha, width_of_isNull hb]
  height := by rw [height_of_isNull ha, height_of_isNull hb]
  diameter := by rw [diameter_of_isNull ha, diameter_of_isNull hb]
  area := by rw [area_of_isNull ha, area_of_isNull hb]
  minExtent := by rw [minExtent_of_isNull ha, minExtent_of_isNull hb]
  maxExtent := by rw [maxExtent_of_isNull ha, maxExtent_of_isNull hb]
  centre := by rw [centre_of_isNull ha, centre_of_isNull hb]
  intersectsPoint x y := by rw [intersectsPoint_of_isNull ha, intersectsPoint_of_isNull hb]
  coversPoint x y := by rw [coversPoint_of_isNull ha, coversPoint_of_isNull hb]
  containsPoint x y := by
    rw [containsPoint, containsPoint, coversPoint_of_isNull ha, coversPoint_of_isNull hb]
  intersectsPosition p := by
    simp only [intersectsPosition, intersectsPoint_of_isNull ha, intersectsPoint_of_isNull hb]
  coversPosition p := by
    simp only [coversPosition, coversPoint_of_isNull ha, coversPoint_of_isNull hb]
  containsPosition p := by
    simp only [containsPosition, coversPosition, coversPoint_of_isNull ha,
      coversPoint_of_isNull hb]
  intersectsSegment p q := by
    rw [intersectsSegment_of_isNull ha, intersectsSegment_of_isNull hb]
  intersects c := by
    rw [intersects_of_isNull_left ha, intersects_of_isNull_left hb, intersects_of_isNull_right ha,
      intersects_of_isNull_right hb]
    exact ⟨rfl, rfl⟩
  disjoint c := by
    simp only [disjoint, intersects_of_isNull_left ha, intersects_of_isNull_left hb,
      intersects_of_isNull_right ha, intersects_of_isNull_right hb, and_self]
  overlaps c := by
    simp only [overlaps, intersects_of_isNull_left ha, intersects_of_isNull_left hb,
      intersects_of_isNull_right ha, intersects_of_isNull_right hb, and_self]
  covers c := by
    rw [covers_of_isNull_left ha, covers_of_isNull_left hb, covers_of_isNull_right ha,
      covers_of_isNull_right hb]
    exact ⟨rfl, rfl⟩
  contains c := by
    simp only [contains, covers_of_isNull_left ha, covers_of_isNull_left hb,
      covers_of_isNull_right ha, covers_of_isNull_right hb, and_self]
  equals c := by
    rw [equals_of_isNull_left ha, equals_of_isNull_left hb, equals_of_isNull_right ha,
      equals_of_isNull_right hb]
    exact ⟨rfl, rfl⟩
  containsProperly c := by
    rw [containsProperly_of_isNull_left ha, containsProperly_of_isNull_left hb,
      containsProperly_of_isNull_right ha, containsProperly_of_isNull_right hb]
    exact ⟨rfl, rfl⟩
  distance c := by
    rw [distance_of_isNull_left ha, distance_of_isNull_left hb, distance_of_isNull_right ha,
      distance_of_isNull_right hb]
    exact ⟨rfl, rfl⟩
  order c := by
    rw [order_of_isNull_left ha, order_of_isNull_left hb, order_of_isNull_right ha,
      order_of_isNull_right hb]
    exact ⟨rfl, rfl⟩
  intersection c := by
    rw [intersection_of_isNull_left ha, intersection_of_isNull_left hb,
      intersection_of_isNull_right ha, intersection_of_isNull_right hb]
    exact ⟨rfl, rfl⟩
  toEnvelope := by rw [toEnvelope_of_isNull ha, toEnvelope_of_isNull hb]
  digest := by rw [digest_of_isNull ha, digest_of_isNull hb]
  grown e := by
    rw [Envelope.expandToIncludeBounds_of_isNull ha, Envelope.expandToIncludeBounds_of_isNull hb]

end Geospatial.Bounds
