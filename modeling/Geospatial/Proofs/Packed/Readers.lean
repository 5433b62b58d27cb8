import Geospatial.Proofs.Packed.Packing

/-!
# The readers of a packed sequence

A packed sequence can be read ordinate by ordinate, coordinate by coordinate in place, as a
coordinate of its own, or as the array of all of them, and it can overwrite a coordinate that the
reader brings. Each reader describes the layout in its own way: by the place in the run, by where
the layout puts a height and a measure, or by counting through what is present. For a measure
without a height the descriptions differ in what they call the third ordinate, and have to come to
the same slot.

All of them are compared with the coordinate in place: `View.get?` is its ordinate of a number, none
past the stride, and every reader is shown to answer that (`readers_agree`). Kept points are read
only from a sequence in use, whose cache shows what is stored.
-/

namespace Geospatial

namespace Coordinate

variable {α : Type}

theorem hasZ_layout (c : Coordinate α) : c.layout.hasZ = c.z.isSome := by
  obtain ⟨x, y, _ | z, _ | m⟩ := c <;> rfl

theorem hasM_layout (c : Coordinate α) : c.layout.hasM = c.m.isSome := by
  obtain ⟨x, y, _ | z, _ | m⟩ := c <;> rfl

/-- Past the stride of its layout, a coordinate has no ordinate. -/
theorem ordinate_of_stride_le (c : Coordinate α) {n : Nat} (h : c.layout.stride ≤ n) :
    c.ordinate n = none := by
  rw [← c.ordinates_getElem?, List.getElem?_eq_none]
  rwa [c.length_ordinates]

end Coordinate

/-! ### One coordinate in place -/

namespace View

variable {σ : Type} [Storage σ] (v : View σ)

/-- The ordinate of a number, if the layout has that many. -/
def get? (n : Nat) : Option Float :=
  if h : n < v.layout.stride then some (v.get n h) else none

/-- **In place, the layout's ordinates are read and no others.** -/
theorem nth_position (n : Nat) : v.position.nth n = .ok (v.get? n) := by
  by_cases hn : n < v.layout.stride
  · have hslot : (v.run.map Storage.widen)[v.index * v.layout.stride + n]? = some (v.get n hn) := by
      rw [Array.getElem?_map, Array.getElem?_eq_getElem (v.place_lt hn)]
      rfl
    have hread : v.position.ordinate n = .ok (v.get n hn) := by
      show (if n < v.layout.stride then Position.ofSlot _ else _) = _
      rw [if_pos hn, hslot]
      rfl
    have hcount : n < v.position.count := hn
    rw [Position.nth, if_pos hcount, hread, get?, dif_pos hn]
    rfl
  · have hcount : ¬n < v.position.count := hn
    rw [Position.nth, if_neg hcount, get?, dif_neg hn]

/-- **Copied out, a coordinate counts through the same ordinates**, whichever of them are
present. -/
theorem ordinate_coordinate_eq_get? (n : Nat) : v.coordinate.ordinate n = v.get? n := by
  by_cases hn : n < v.layout.stride
  · rw [v.ordinate_coordinate hn, get?, dif_pos hn]
  · rw [get?, dif_neg hn, Coordinate.ordinate_of_stride_le]
    rw [layout_coordinate]
    exact Nat.le_of_not_lt hn

end View

/-! ### One coordinate of a sequence -/

namespace PackedSequence

variable {σ : Type} [Storage σ] (b : PackedSequence σ) {i : Nat}

omit [Storage σ] in
theorem view_of_lt (hi : i < b.length) : b.view i = .ok (b.viewAt ⟨i, hi⟩) := by
  rw [view, dif_pos hi]

omit [Storage σ] in
theorem getElem?_views (hi : i < b.length) : b.views[i]? = some (b.viewAt ⟨i, hi⟩) := by
  rw [views, List.getElem?_ofFn, dif_pos hi]

variable {b}

/-- **Kept or not, the point at an index is the coordinate that stands there.** -/
theorem point_of_lt (h : b.UpToDate) (hi : i < b.length) (held : Nat → Bool) :
    b.point held i = .ok (b.viewAt ⟨i, hi⟩).coordinate := by
  rw [exists_ok_iff_toOption, toOption_point h, b.pointAnew_of_lt hi]
  rfl

/-- The kept points, if they are up to date, are those that a view shows. -/
theorem getElem?_pointArray (h : b.UpToDate) (hi : i < b.length) (held : Nat → Bool) (id : Nat) :
    (b.pointArray held id).1.points[i]? = some (b.viewAt ⟨i, hi⟩).coordinate := by
  rw [points_pointArray h, b.getElem?_coordinates, b.pointAnew_of_lt hi]
  rfl

/-- Overwriting leaves what the coordinate of the sequence does not have. -/
theorem readInto_of_stores {c : Coordinate Float} (h : b.Stores i c) (into : Coordinate Float) :
    b.readInto i into = .ok { x := c.x, y := c.y, z := c.z.or into.z, m := c.m.or into.m } := by
  rw [readInto, h.x, h.y, h.z, h.m]
  rfl

/-- What stands in place, and a coordinate of its own, both show the same as their ordinate of a
number, or nothing there. -/
structure Shows (v : View σ) (p : Coordinate Float) (n : Nat) (o : Option Float) : Prop where
  inPlace : v.position.nth n = .ok o
  asPosition : (Position.coordinate p).nth n = .ok o
  counted : p.ordinate n = o

/-- A coordinate shows its view at every number, also at one that the layout does not have. -/
theorem shows_coordinate (v : View σ) (n : Nat) : Shows v v.coordinate n (v.get? n) where
  inPlace := v.nth_position n
  asPosition := by rw [Position.nth_coordinate, v.ordinate_coordinate_eq_get?]
  counted := v.ordinate_coordinate_eq_get? n

/-- **All readers give the same ordinates.** At every index of a sequence in use, whoever holds its
points:

* the coordinate is read in place, alone or among all, and as a coordinate of its own, kept, anew or
  out of the array of points;
* below the stride these show the ordinate that is read alone, at its number or at its place in the
  run, and from the stride on they show nothing;
* the coordinate has the layout of the sequence, and the height and the measure that are read alone;
* a coordinate that is overwritten takes over what the sequence has, and keeps the height and the
  measure where it has none. -/
theorem readers_agree (h : b.InUse) (hi : i < b.length) (held : Nat → Bool) (id : Nat) :
    ∃ v p, (b.view i = .ok v ∧ b.views[i]? = some v) ∧
      (b.point held i = .ok p ∧ b.pointAnew i = .ok p ∧
        (b.pointArray held id).1.points[i]? = some p) ∧
      (∀ n < b.layout.stride, ∃ o, b.ordinate i n = .ok o ∧
        b.raw (i * b.layout.stride + n) = .ok o ∧ Shows v p n (some o)) ∧
      (∀ n, b.layout.stride ≤ n → Shows v p n none) ∧
      (p.layout = b.layout ∧ b.z i = .ok p.z ∧ b.m i = .ok p.m) ∧
      ∀ into, ∃ r, b.readInto i into = .ok r ∧ b.x i = .ok r.x ∧ b.y i = .ok r.y ∧
        r.z = (if b.layout.hasZ then p.z else into.z) ∧
        r.m = if b.layout.hasM then p.m else into.m := by
  have hstores := b.stores_of_pointAnew (b.pointAnew_of_lt hi)
  have hlayout : (b.viewAt ⟨i, hi⟩).coordinate.layout = b.layout := View.layout_coordinate _
  have hshows := shows_coordinate (b.viewAt ⟨i, hi⟩)
  refine ⟨b.viewAt ⟨i, hi⟩, (b.viewAt ⟨i, hi⟩).coordinate, ⟨b.view_of_lt hi, b.getElem?_views hi⟩,
    ⟨point_of_lt h.upToDate hi held, b.pointAnew_of_lt hi,
      getElem?_pointArray h.upToDate hi held id⟩,
    fun n hn ↦ ?_, fun n hn ↦ ?_, ⟨hlayout, hstores.z, hstores.m⟩, fun into ↦ ?_⟩
  · have hget : (b.viewAt ⟨i, hi⟩).get? n = some ((b.viewAt ⟨i, hi⟩).get n hn) := dif_pos hn
    exact ⟨_, b.ordinate_of_lt hi hn, (b.ordinate_eq_raw hi hn).symm.trans (b.ordinate_of_lt hi hn),
      hget ▸ hshows n⟩
  · have hget : (b.viewAt ⟨i, hi⟩).get? n = none := dif_neg (Nat.not_lt_of_le hn)
    exact hget ▸ hshows n
  · refine ⟨_, readInto_of_stores hstores into, hstores.x, hstores.y, ?_, ?_⟩
    · rw [← hlayout, Coordinate.hasZ_layout]
      rcases (b.viewAt ⟨i, hi⟩).coordinate.z with - | z <;> rfl
    · rw [← hlayout, Coordinate.hasM_layout]
      rcases (b.viewAt ⟨i, hi⟩).coordinate.m with - | m <;> rfl

/-- Two coordinates with a measure, their points kept from before and read again after a write: the
third ordinate of the second one is its measure for every reader, a fourth is not there, and a
coordinate that is overwritten keeps its height. -/
theorem readers_agree_measured :
    let made : PackedSequence Float :=
      ⟨.xym, #[1.0, 2.0, 3.0, 4.0, 5.0, 6.0], rfl, ⟨.retained, .empty⟩⟩
    let b := ((Session.start made).run [.points none, .setOrdinate 1 2 7.0, .points none]).1.buffer
    let held : Nat → Bool := fun _ ↦ false
    b.InUse ∧ 1 < b.length ∧ b.isCached held = true ∧
      ∃ v p, b.view 1 = .ok v ∧ b.point held 1 = .ok p ∧ Shows v p 2 (some 7.0) ∧
        Shows v p 3 none ∧ ∃ r, b.readInto 1 ⟨0.0, 0.0, some 9.0, none⟩ = .ok r ∧
          r.z = some 9.0 := by
  intro made b held
  have huse : b.InUse := ⟨made.ordinates, made.options, made, _, dif_pos made.whole, Or.inl rfl⟩
  have hlength : 1 < b.length := by decide
  have hcached : b.isCached held = true := by decide
  have hmeasure : b.ordinate 1 2 = .ok 7.0 := by
    unfold b made
    rfl
  obtain ⟨v, p, ⟨hview, -⟩, ⟨hpoint, -, -⟩, hbelow, hpast, -, hinto⟩ :=
    readers_agree huse hlength held 0
  obtain ⟨o, hordinate, -, hshows⟩ := hbelow 2 (by decide)
  obtain rfl : 7.0 = o := Except.ok.inj (hmeasure.symm.trans hordinate)
  obtain ⟨r, hr, -, -, hz, -⟩ := hinto ⟨0.0, 0.0, some 9.0, none⟩
  have hnoheight : ¬b.layout.hasZ := by decide
  exact ⟨huse, hlength, hcached, v, p, hview, hpoint, hshows, hpast 3 (by decide), r, hr,
    hz.trans (if_neg hnoheight)⟩

end PackedSequence

end Geospatial
