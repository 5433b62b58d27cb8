import Geospatial.Proofs.Extrema.Refinement
import Geospatial.Proofs.Packed.Writing

/-!
# Writes that leave the plane alone

A coordinate lies on the plane by its first two ordinates; whatever stands behind them in its slot
may be written to without moving it. `SessionStep.SparesPlane` says which steps do no more than
that, and `SamePlane` what they leave as it was: the layout, the length and the first two ordinates
of every coordinate. One step keeps it (`samePlane_step`), so a run does (`samePlane_run`), and the
places of the coordinates are the same afterwards (`SamePlane.points_toSequence`).

Where the ordinate is does not matter. A height or a measure past the end has its place behind the
run, if it can be counted at all, and an ordinate that the layout does not have is not written to:
neither comes down on the x or the y of another coordinate.
-/

namespace Geospatial

/-- The step writes to no x and to no y. It may write to any other ordinate, whether or not there is
a coordinate at the index and whether or not its layout has the ordinate. -/
def SessionStep.SparesPlane (d : Layout) : SessionStep → Prop
  | .setOrdinate _ k _ => 2 ≤ k
  | .writeRaw writes => ∀ w ∈ writes, 2 ≤ w.1 % d.stride
  | .swap _ => False
  | _ => True

namespace PackedSequence

variable {σ : Type} {b c : PackedSequence σ}

/-- What makes up the plane is the same in both. -/
structure SamePlane (b c : PackedSequence σ) : Prop where
  layout : c.layout = b.layout
  size : c.ordinates.size = b.ordinates.size
  stored : ∀ place, place % b.layout.stride < 2 → c.ordinates[place]? = b.ordinates[place]?

theorem SamePlane.trans {d : PackedSequence σ} (h : SamePlane b c) (h' : SamePlane c d) :
    SamePlane b d := by
  refine ⟨h'.layout.trans h.layout, h'.size.trans h.size, fun place hplace ↦ ?_⟩
  rw [h'.stored place (h.layout ▸ hplace), h.stored place hplace]

/-- What is kept of the points does not count. -/
theorem samePlane_of_contents (h : b.contents = c.contents) : SamePlane b c := by
  obtain ⟨hlayout, hordinates⟩ := Prod.mk.inj h
  exact ⟨hlayout.symm, by rw [hordinates], fun place _ ↦ by rw [hordinates]⟩

theorem samePlane_release (b : PackedSequence σ) : SamePlane b b.release :=
  samePlane_of_contents rfl

theorem SamePlane.length (h : SamePlane b c) : c.length = b.length := by
  rw [PackedSequence.length, PackedSequence.length, h.layout, h.size]

variable [Storage σ]

/-! ### One step -/

/-- A place behind the first two of its slot holds neither an x nor a y. -/
theorem samePlane_writeAt {place : Nat} (h : 2 ≤ place % b.layout.stride) (v : Float) :
    SamePlane b (b.writeAt place v).1 := by
  refine ⟨b.layout_writeAt place v, b.size_writeAt place v, fun other hother ↦ ?_⟩
  have hne : place ≠ other := by
    rintro rfl
    omega
  rw [ordinates_writeAt, Array.getElem?_setIfInBounds_ne hne]

/-- A number from two on names a height or a measure. -/
theorem samePlane_setOrdinate {k : Nat} (hk : 2 ≤ k) (i : Nat) (v : Float) :
    SamePlane b (b.setOrdinate i k v).1 := by
  by_cases hstride : k < b.layout.stride
  · refine ⟨b.layout_setOrdinate i k v, b.size_setOrdinate i k v, fun other hother ↦ ?_⟩
    have hne : i * b.layout.stride + k ≠ other := by
      rintro rfl
      rw [offset_mod_stride hstride] at hother
      omega
    rw [b.ordinates_setOrdinate hstride, Array.getElem?_setIfInBounds_ne hne]
  · rw [b.setOrdinate_of_stride_le (Nat.le_of_not_lt hstride)]
    exact samePlane_of_contents rfl

/-- So does a place that leaves at least two when it is divided by the stride. -/
theorem samePlane_writeEach {writes : List (Nat × Float)}
    (h : ∀ w ∈ writes, 2 ≤ w.1 % b.layout.stride) : SamePlane b (b.writeEach writes).1 := by
  induction writes generalizing b with
  | nil => exact samePlane_of_contents rfl
  | cons w rest ih =>
    obtain ⟨place, v⟩ := w
    have hfirst : SamePlane b (b.writeAt place v).1 :=
      samePlane_writeAt (h _ List.mem_cons_self) v
    rw [writeEach]
    split
    next next hwrite =>
      rw [hwrite] at hfirst
      refine hfirst.trans (ih fun w hw ↦ ?_)
      rw [hfirst.layout]
      exact h w (List.mem_cons_of_mem _ hw)
    -- a write that fails ends the step
    next => exact hfirst

end PackedSequence

namespace Session

open PackedSequence (SamePlane samePlane_of_contents)

variable {σ : Type} [Storage σ] {s : Session σ} {steps : List SessionStep} {t : SessionStep}

/-- A step that spares the plane changes nothing that envelopes look at. -/
theorem samePlane_step (h : t.SparesPlane s.buffer.layout) :
    SamePlane s.buffer (s.step t).1.buffer := by
  rw [buffer_step]
  cases t with
  | setOrdinate i k v => exact PackedSequence.samePlane_setOrdinate h i v
  | writeRaw writes =>
    exact (PackedSequence.samePlane_release s.buffer).trans (PackedSequence.samePlane_writeEach h)
  | swap name => exact h.elim
  | _ => exact samePlane_of_contents rfl

/-! ### A run of steps -/

/-- By induction, nor does a run of such steps. -/
theorem samePlane_run (h : ∀ t ∈ steps, t.SparesPlane s.buffer.layout) :
    SamePlane s.buffer (s.run steps).1.buffer := by
  induction steps generalizing s with
  | nil => exact samePlane_of_contents rfl
  | cons t rest ih =>
    have hfirst := samePlane_step (h t List.mem_cons_self)
    refine hfirst.trans (ih fun u hu ↦ ?_)
    rw [hfirst.layout]
    exact h u (List.mem_cons_of_mem _ hu)

end Session

namespace PackedSequence

variable {σ : Type} [Storage σ] {b c : PackedSequence σ}

/-- The x and the y of a coordinate are read as before. -/
theorem SamePlane.ordinate (h : SamePlane b c) {i k : Nat} (hi : i < b.length) (hk : k < 2) :
    c.ordinate i k = b.ordinate i k := by
  have hstride : k < b.layout.stride := Nat.lt_of_lt_of_le hk b.layout.two_le_stride
  have hplace : (i * b.layout.stride + k) % b.layout.stride < 2 := by
    rwa [offset_mod_stride hstride]
  rw [ordinate_eq_raw c (h.length.symm ▸ hi) (h.layout.symm ▸ hstride),
    ordinate_eq_raw b hi hstride,
    h.layout, raw, raw, h.stored _ hplace]

/-- **The coordinates lie where they lay.** -/
theorem SamePlane.points_toSequence (h : SamePlane b c) : c.toSequence.points = .ok b.points := by
  obtain ⟨hlength, hread⟩ := Sequence.points_eq_ok_iff.mp b.points_toSequence
  refine Sequence.points_eq_ok_iff.mpr ⟨hlength.trans h.length.symm, fun i hi ↦ ?_⟩
  have hi' : i < b.length := hi.trans_eq hlength
  obtain ⟨hx, hy⟩ := hread i hi
  exact ⟨(h.ordinate hi' Nat.two_pos).trans hx, (h.ordinate hi' Nat.one_lt_two).trans hy⟩

end PackedSequence

end Geospatial
