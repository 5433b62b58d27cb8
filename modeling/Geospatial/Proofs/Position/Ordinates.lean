import Geospatial.Packed.Sequence
import Geospatial.Proofs.Reading

/-!
# The ordinates of a position

A position, a coordinate and a stretch of a flat run can each be read as the list of their
ordinates. This module says when they are the same list.

* `Layout.chunk` — the stretch of a run that belongs to one coordinate. Coordinates that are put one
  after the other are the run (`flatten_chunks`), and are found in it at their index
  (`chunk_flatten`).
* `Position.mapM_ordinate` — reading a position number by number, up to its count, gives its list
  and never fails. What is asked for that is `Position.Within`: a coordinate in place lies within
  its run. All other positions do by what they are.
* `Coordinate.eq_of_ordinates` — a coordinate is known from its layout and its list. With the list
  of a coordinate in place (`View.ordinates_coordinate`) this is all that decoding a run takes.
-/

namespace Geospatial

/-! ### Runs of coordinates -/

namespace Layout

variable {α β : Type} (d : Layout)

/-- The stretch of a flat run that belongs to the coordinate at an index. -/
def chunk (l : List α) (i : Nat) : List α :=
  (l.drop (i * d.stride)).take d.stride

variable {d}

theorem length_chunk {l : List α} {i : Nat} (h : (i + 1) * d.stride ≤ l.length) :
    (d.chunk l i).length = d.stride := by
  rw [Nat.add_mul, Nat.one_mul] at h
  rw [chunk, List.length_take, List.length_drop]
  omega

/-- The ordinates of a chunk are those of the run, moved by where it begins. -/
theorem getElem?_chunk {l : List α} {i k : Nat} (hk : k < d.stride) :
    (d.chunk l i)[k]? = l[i * d.stride + k]? := by
  rw [chunk, List.getElem?_take_of_lt hk, List.getElem?_drop]

theorem map_chunk (f : α → β) (l : List α) (i : Nat) :
    (d.chunk l i).map f = d.chunk (l.map f) i := by
  rw [chunk, chunk, List.map_take, List.map_drop]

/-- **The coordinates of a run, put one after the other, are the run.** -/
theorem flatten_chunks (l : List α) (n : Nat) :
    ((List.range n).map (d.chunk l)).flatten = l.take (n * d.stride) := by
  induction n with
  | zero => rw [Nat.zero_mul, List.take_zero, List.range_zero, List.map_nil, List.flatten_nil]
  | succ n ih =>
    rw [List.range_succ, List.map_append, List.flatten_append, ih, Nat.add_mul, Nat.one_mul,
      List.take_add, List.map_singleton, List.flatten_singleton, chunk]

/-- **Coordinates that are put one after the other are found at their index.** -/
theorem chunk_flatten {ls : List (List α)} (h : ∀ l ∈ ls, l.length = d.stride) {j : Nat}
    (hj : j < ls.length) : d.chunk ls.flatten j = ls[j] := by
  induction ls generalizing j with
  | nil => exact absurd hj (Nat.not_lt_zero _)
  | cons l ls ih =>
    have hl : l.length = d.stride := h l List.mem_cons_self
    cases j with
    | zero =>
      rw [chunk, Nat.zero_mul, List.drop_zero, List.flatten_cons, ← hl, List.take_left]
      rfl
    | succ j =>
      -- all lists are one stride long, so that dropping the first leaves the chunks before
      have hrest := ih (fun l' hl' ↦ h l' (List.mem_cons_of_mem _ hl')) (Nat.lt_of_succ_lt_succ hj)
      rw [List.getElem_cons_succ, ← hrest, chunk, chunk, List.flatten_cons, Nat.add_mul,
        Nat.one_mul, Nat.add_comm, ← List.drop_drop, ← hl, List.drop_left]

/-- Coordinates of one layout, put one after the other, make a run of whole coordinates. -/
theorem length_flatten {ls : List (List α)} (h : ∀ l ∈ ls, l.length = d.stride) :
    ls.flatten.length = ls.length * d.stride := by
  induction ls with
  | nil => rw [List.flatten_nil, List.length_nil, List.length_nil, Nat.zero_mul]
  | cons l ls ih =>
    rw [List.flatten_cons, List.length_append, h l List.mem_cons_self,
      ih fun l' hl' ↦ h l' (List.mem_cons_of_mem _ hl'), List.length_cons, Nat.add_mul, Nat.one_mul,
      Nat.add_comm]

end Layout

/-! ### Coordinates -/

namespace Coordinate

variable {α β : Type}

@[simp] theorem layout_map (f : α → β) (c : Coordinate α) : (c.map f).layout = c.layout := by
  rw [layout, layout, map, Option.isSome_map, Option.isSome_map]

theorem ordinates_map (f : α → β) (c : Coordinate α) :
    (c.map f).ordinates = c.ordinates.map f := by
  obtain ⟨x, y, z, m⟩ := c
  cases z <;> cases m <;> rfl

/-- **A coordinate is known from its layout and its ordinates.** -/
theorem eq_of_ordinates {a b : Coordinate α} (hlayout : a.layout = b.layout)
    (hordinates : a.ordinates = b.ordinates) : a = b := by
  obtain ⟨ax, ay, az, am⟩ := a
  obtain ⟨bx, bY, bz, bm⟩ := b
  -- which ordinates are present is read off the layout, so the two lists pair them up
  cases az <;> cases am <;> cases bz <;> cases bm <;> cases hlayout <;> cases hordinates <;> rfl

end Coordinate

/-! ### Positions -/

namespace Position

variable {α : Type}

/-- A coordinate in place lies within its run; any other position holds its ordinates itself. -/
def Within : Position α → Prop
  | .inRun layout run index => (index + 1) * layout.stride ≤ run.size
  | _ => True

/-- All ordinates, in order. -/
def ordinates : Position α → List α
  | .coordinate c => c.ordinates
  | .pair _ x y => [x, y]
  | .bare l => l
  | .inRun layout run index => layout.chunk run.toList index

variable {p : Position α}

/-- There are as many ordinates as are counted. -/
theorem length_ordinates (h : p.Within) : p.ordinates.length = p.count := by
  cases p with
  | coordinate c => exact c.length_ordinates
  | pair kind x y => rfl
  | bare l => rfl
  | inRun layout run index => exact Layout.length_chunk h

variable [Ordinate α]

/-- Below the count, a position is read as its list. -/
theorem ordinate_of_lt (h : p.Within) {k : Nat} (hk : k < p.ordinates.length) :
    p.ordinate k = .ok p.ordinates[k] := by
  cases p with
  | coordinate c =>
    have hread : c.ordinate k = some c.ordinates[k] := by
      rw [← c.ordinates_getElem?]
      exact List.getElem?_eq_getElem hk
    show Except.ok ((c.ordinate k).getD Ordinate.undefined) = _
    rw [hread]
    rfl
  | pair kind x y =>
    match k, hk with
    | 0, _ => rfl
    | 1, _ => rfl
  | bare l =>
    have hk : k < l.length := hk
    show ofSlot l[k]? = .ok l[k]
    rw [List.getElem?_eq_getElem hk]
    rfl
  -- within the layout the bound of the run is the only one that is left to be checked
  | inRun layout run index =>
    have hstride : k < layout.stride := by rwa [length_ordinates h] at hk
    have hk : k < (layout.chunk run.toList index).length := hk
    rw [ordinate, if_pos hstride]
    show ofSlot run[index * layout.stride + k]? = .ok (layout.chunk run.toList index)[k]
    rw [← Array.getElem?_toList, ← Layout.getElem?_chunk hstride, List.getElem?_eq_getElem hk]
    rfl

/-- **Reading a position up to its count never fails.** -/
theorem mapM_ordinate (h : p.Within) : (List.range p.count).mapM p.ordinate = .ok p.ordinates :=
  mapM_range_eq_ok_iff.mpr ⟨length_ordinates h, fun _ hk ↦ ordinate_of_lt h hk⟩

end Position

/-! ### Coordinates in place -/

namespace View

variable {σ : Type} [Storage σ] (v : View σ)

theorem within_position : v.position.Within := by
  show (v.index + 1) * v.layout.stride ≤ (v.run.map Storage.widen).size
  rw [Array.size_map]
  exact v.inside

/-- A view lists its chunk of the run. -/
theorem ordinates_position :
    v.position.ordinates = v.layout.chunk (v.run.toList.map Storage.widen) v.index := by
  show v.layout.chunk (v.run.map Storage.widen).toList v.index = _
  rw [Array.toList_map]

theorem getElem?_chunk {k : Nat} (hk : k < v.layout.stride) :
    (v.layout.chunk (v.run.toList.map Storage.widen) v.index)[k]? = some (v.get k hk) := by
  have hplace := v.place_lt hk
  rw [Layout.getElem?_chunk hk, List.getElem?_map, Array.getElem?_toList,
    Array.getElem?_eq_getElem hplace]
  rfl

/-- The ordinates of the coordinate are those that the layout tells, each at its number. -/
theorem ordinate_coordinate {k : Nat} (hk : k < v.layout.stride) :
    v.coordinate.ordinate k = some (v.get k hk) := by
  obtain ⟨layout, run, index, inside⟩ := v
  cases layout with
  | xy =>
    match k, hk with
    | 0, _ | 1, _ => rfl
  | xyz =>
    match k, hk with
    | 0, _ | 1, _ | 2, _ => rfl
  | xym =>
    match k, hk with
    | 0, _ | 1, _ | 2, _ => rfl
  | xyzm =>
    match k, hk with
    | 0, _ | 1, _ | 2, _ | 3, _ => rfl

/-- **Decoding a coordinate in place reads its stretch of the run.** -/
theorem ordinates_coordinate :
    v.coordinate.ordinates = v.layout.chunk (v.run.toList.map Storage.widen) v.index := by
  have hleft : v.coordinate.ordinates.length = v.layout.stride := by
    rw [Coordinate.length_ordinates, layout_coordinate]
  have hright : (v.layout.chunk (v.run.toList.map Storage.widen) v.index).length =
      v.layout.stride := by
    rw [← ordinates_position, Position.length_ordinates v.within_position]
    rfl
  refine List.ext_getElem (hleft.trans hright.symm) fun k hk hk' ↦ ?_
  have hstride : k < v.layout.stride := hleft ▸ hk
  apply Option.some.inj
  rw [← List.getElem?_eq_getElem hk, ← List.getElem?_eq_getElem hk', getElem?_chunk v hstride,
    Coordinate.ordinates_getElem?, ordinate_coordinate v hstride]

end View

end Geospatial
