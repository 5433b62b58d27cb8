import Geospatial.Packed.Sequence
import Geospatial.Proofs.Reading

/-!
# Reading a packed sequence

What the readers of a packed sequence answer within its length. Single ordinates, whole coordinates
and the leading pairs of the run describe the layout in three ways, and this module ties the three
together:

* `ordinate_of_lt` — an ordinate of the layout is the slot at `index * stride + number`;
* `stores_of_pointAnew` — a coordinate that is read has exactly the ordinates stored at its index;
* `points_toSequence` — reading the run from front to back visits the same places as reading it
  index by index.

All of it rests on `PackedSequence.offset_lt_size`: below the length no ordinate lies past the run.
-/

namespace Geospatial

namespace PackedSequence

/-! ### The leading pairs of a run -/

section Run

variable {σ : Type}

/-- A tail that is shorter than a coordinate has no leading pair. -/
theorem leadingPairs_of_lt {d : Layout} {l : List σ} (h : l.length < d.stride) :
    leadingPairs d l = [] := by
  rcases l with _ | ⟨a, _ | ⟨b, _ | ⟨c, _ | ⟨e, rest⟩⟩⟩⟩ <;> cases d <;>
    simp [Layout.stride] at h <;> first | rfl | omega

/-- One whole coordinate at the front is one pair, and the rest goes on after its stride. -/
theorem leadingPairs_of_le {d : Layout} {l : List σ} (h : d.stride ≤ l.length)
    (h₀ : 0 < l.length) (h₁ : 1 < l.length) :
    leadingPairs d l = (l[0], l[1]) :: leadingPairs d (l.drop d.stride) := by
  rcases l with _ | ⟨a, _ | ⟨b, _ | ⟨c, _ | ⟨e, rest⟩⟩⟩⟩ <;> cases d <;>
    simp [Layout.stride] at h <;> rfl

/-- There is one pair for each whole coordinate; a rest that is shorter gives none. -/
theorem length_leadingPairs (d : Layout) (l : List σ) :
    (leadingPairs d l).length = l.length / d.stride := by
  -- the induction is on the number of coordinates, since pairs are taken a stride at a time
  induction hn : l.length / d.stride generalizing l with
  | zero =>
    rw [leadingPairs_of_lt (Nat.lt_of_div_eq_zero d.stride_pos hn), List.length_nil]
  | succ n ih =>
    have hle : d.stride ≤ l.length := by
      by_contra h
      rw [Nat.div_eq_of_lt (by omega)] at hn
      omega
    have hdrop : (l.drop d.stride).length / d.stride = n := by
      have := Nat.sub_mul_div l.length d.stride 1
      rw [Nat.mul_one] at this
      rw [List.length_drop]
      omega
    have htwo := d.two_le_stride
    rw [leadingPairs_of_le hle (by omega) (by omega), List.length_cons, ih _ hdrop]

/-- The pair at an index stands at the index times the stride. -/
theorem getElem_leadingPairs {d : Layout} {l : List σ} {i : Nat}
    (h : i < (leadingPairs d l).length) (h₀ : i * d.stride < l.length)
    (h₁ : i * d.stride + 1 < l.length) :
    (leadingPairs d l)[i] = (l[i * d.stride], l[i * d.stride + 1]) := by
  have hle : (i + 1) * d.stride ≤ l.length := by
    rw [length_leadingPairs] at h
    exact Nat.le_trans (Nat.mul_le_mul_right _ h) (Nat.div_mul_le_self ..)
  have htwo := d.two_le_stride
  induction i generalizing l with
  | zero =>
    have hle' : d.stride ≤ l.length := by omega
    simp only [leadingPairs_of_le hle' (by omega) (by omega), List.getElem_cons_zero,
      Nat.zero_mul, Nat.zero_add]
  | succ i ih =>
    have hstep : (i + 1) * d.stride = d.stride + i * d.stride := by
      rw [Nat.add_mul, Nat.one_mul, Nat.add_comm]
    have hnext : (i + 1 + 1) * d.stride = d.stride + (i + 1) * d.stride := by
      rw [Nat.add_mul, Nat.one_mul, Nat.add_comm]
    have hle' : d.stride ≤ l.length := by omega
    simp only [leadingPairs_of_le hle' (by omega) (by omega), List.getElem_cons_succ]
    rw [ih _ (by rw [List.length_drop]; omega) (by rw [List.length_drop]; omega)
      (by rw [List.length_drop]; omega)]
    simp only [List.getElem_drop, hstep, Nat.add_assoc]

/-- Both ordinates of a leading pair lie within the run. -/
theorem mul_stride_lt_of_lt {d : Layout} {l : List σ} {i : Nat}
    (h : i < (leadingPairs d l).length) : i * d.stride + 1 < l.length := by
  have hle : (i + 1) * d.stride ≤ l.length := by
    rw [length_leadingPairs] at h
    exact Nat.le_trans (Nat.mul_le_mul_right _ h) (Nat.div_mul_le_self ..)
  have htwo := d.two_le_stride
  rw [Nat.add_mul, Nat.one_mul] at hle
  omega

theorem mem_of_mem_leadingPairs {d : Layout} {l : List σ} {p : σ × σ}
    (h : p ∈ leadingPairs d l) : p.1 ∈ l ∧ p.2 ∈ l := by
  obtain ⟨i, hi, rfl⟩ := List.getElem_of_mem h
  have hlt := mul_stride_lt_of_lt hi
  rw [getElem_leadingPairs hi (by omega) hlt]
  exact ⟨List.getElem_mem _, List.getElem_mem _⟩

/-- Changing every ordinate of a run changes those of its leading pairs. -/
theorem leadingPairs_map {τ : Type} (f : σ → τ) (d : Layout) (l : List σ) :
    leadingPairs d (l.map f) = (leadingPairs d l).map (Prod.map f f) := by
  refine List.ext_getElem ?_ fun i hi hi' ↦ ?_
  · rw [List.length_map, length_leadingPairs, length_leadingPairs, List.length_map]
  · rw [List.length_map] at hi'
    have hlt := mul_stride_lt_of_lt hi
    have hlt' := mul_stride_lt_of_lt hi'
    rw [getElem_leadingPairs hi (by omega) hlt]
    simp only [List.getElem_map]
    rw [getElem_leadingPairs hi' (by omega) hlt']
    rfl

/-- A run of whole coordinates is taken over as it is. -/
theorem exists_ofStored {run : Array σ} {options : SequenceOptions}
    (h : run.size % options.layout.stride = 0) :
    ∃ s, ofStored run options = .ok s ∧ s.options = options ∧ s.ordinates = run :=
  ⟨⟨options.layout, run, h, { policy := options.cache }⟩, dif_pos h, rfl, rfl⟩

end Run

/-! ### Single ordinates -/

variable {σ : Type} [Storage σ] (b : PackedSequence σ)

/-- Within the sequence, an ordinate of the layout is read at its own place in the run. -/
theorem ordinate_eq_raw {i k : Nat} (hi : i < b.length) (hk : k < b.layout.stride) :
    b.ordinate i k = b.raw (i * b.layout.stride + k) := by
  rw [ordinate, if_pos hk, ordinateVouched, b.place_of_lt_size (b.offset_lt_size hi hk)]
  rfl

/-- Within the sequence, reading an ordinate is looking at its slot in place. -/
theorem ordinate_of_lt {i k : Nat} (hi : i < b.length) (hk : k < b.layout.stride) :
    b.ordinate i k = .ok ((b.viewAt ⟨i, hi⟩).get k hk) := by
  rw [b.ordinate_eq_raw hi hk, raw, Array.getElem?_eq_getElem (b.offset_lt_size hi hk)]
  rfl

/-- The same for an ordinate that the layout may or may not have. -/
theorem mapM_ordinate_of_lt {i : Nat} (hi : i < b.length) (o : Option Nat)
    (ho : ∀ k, o = some k → k < b.layout.stride) :
    o.mapM (b.ordinate i) = .ok (o.pmap (b.viewAt ⟨i, hi⟩).get ho) := by
  cases o with
  | none => rfl
  | some k =>
    show some <$> b.ordinate i k = _
    rw [b.ordinate_of_lt hi (ho k rfl)]
    rfl

/-! ### Whole coordinates -/

/-- The coordinate has the ordinates that stand at the index now, and no others. -/
structure Stores (i : Nat) (c : Coordinate Float) : Prop where
  x : b.x i = .ok c.x
  y : b.y i = .ok c.y
  z : b.z i = .ok c.z
  m : b.m i = .ok c.m

theorem pointAnew_of_lt {i : Nat} (hi : i < b.length) :
    b.pointAnew i = .ok (b.viewAt ⟨i, hi⟩).coordinate := by
  rw [pointAnew, view, dif_pos hi]
  rfl

/-- Past its end there is none, and the failure names the index and the length. -/
theorem pointAnew_of_le {i : Nat} (hi : b.length ≤ i) :
    b.pointAnew i = .error (.noCoordinate i b.length) := by
  rw [pointAnew, view, dif_neg (by omega)]
  rfl

/-- A coordinate read anew has the ordinates stored at its index. -/
theorem stores_of_pointAnew {i : Nat} {c : Coordinate Float} (h : b.pointAnew i = .ok c) :
    b.Stores i c := by
  rcases Nat.lt_or_ge i b.length with hi | hi
  · rw [b.pointAnew_of_lt hi] at h
    obtain rfl := Except.ok.inj h
    exact ⟨b.ordinate_of_lt hi b.layout.stride_pos, b.ordinate_of_lt hi b.layout.two_le_stride,
      b.mapM_ordinate_of_lt hi _ fun _ ↦ Layout.lt_stride_of_zIndex,
      b.mapM_ordinate_of_lt hi _ fun _ ↦ Layout.lt_stride_of_mIndex⟩
  · rw [b.pointAnew_of_le hi] at h
    cases h

/-- The list of all coordinates shows at each index what reading that index shows. -/
theorem getElem?_coordinates (i : Nat) : b.coordinates[i]? = (b.pointAnew i).toOption := by
  rw [coordinates, views, List.getElem?_map, List.getElem?_ofFn]
  rcases Nat.lt_or_ge i b.length with hi | hi
  · rw [dif_pos hi, b.pointAnew_of_lt hi]
    rfl
  · rw [dif_neg (by omega), b.pointAnew_of_le hi]
    rfl

/-! ### Places -/

theorem length_points : b.points.length = b.length := by
  rw [points, List.length_map, length_leadingPairs]
  rfl

/-- The place at an index is read without a failure. -/
theorem point_toSequence {i : Nat} (hi : i < b.points.length) :
    b.toSequence.point i = .ok b.points[i] := by
  have hlt : i < b.length := b.length_points ▸ hi
  have hx := b.ordinate_of_lt hlt b.layout.stride_pos
  have hy := b.ordinate_of_lt hlt b.layout.two_le_stride
  have hrun : b.points[i] =
      ((b.viewAt ⟨i, hlt⟩).get 0 b.layout.stride_pos,
        (b.viewAt ⟨i, hlt⟩).get 1 b.layout.two_le_stride) := by
    have h₀ : i * b.layout.stride + 0 < b.ordinates.size :=
      (b.viewAt ⟨i, hlt⟩).place_lt b.layout.stride_pos
    have h₁ : i * b.layout.stride + 1 < b.ordinates.size :=
      (b.viewAt ⟨i, hlt⟩).place_lt b.layout.two_le_stride
    simp only [points, List.getElem_map]
    rw [getElem_leadingPairs (by simpa [points] using hi) (by simpa using h₀) (by simpa using h₁)]
    simp only [View.get, Array.getElem_toList, viewAt, Nat.add_zero]
  rw [hrun]
  show (do let x ← b.ordinate i 0; let y ← b.ordinate i 1; return (x, y)) = _
  rw [hx, hy]
  rfl

/-- **Front to back is index by index.** -/
theorem points_toSequence : b.toSequence.points = .ok b.points := by
  rw [Sequence.points, mapM_range_eq_ok_iff]
  exact ⟨b.length_points, fun i hi ↦ b.point_toSequence hi⟩

end PackedSequence

end Geospatial
