import Geospatial.Sequence
import Mathlib.Data.List.Forall2

/-!
# Readings that succeed

A reading either gives a value or names a violation. This module opens the readings that succeed: a
chain of two (`bind_eq_ok_iff`), one for each element of a list (`mapM_eq_ok_iff`), and the places
of a whole sequence (`Sequence.points_eq_ok_iff`).

**A sequence keeps its word** when every index below its size can be read. Nothing is asked of the
indices past the end.
-/

namespace Geospatial

section Except

variable {ε α β : Type}

/-- What is made of a result succeeds where there is one and it can be made of that. -/
theorem bind_eq_ok_iff {x : Except ε α} {f : α → Except ε β} {b : β} :
    x >>= f = .ok b ↔ ∃ a, x = .ok a ∧ f a = .ok b := by
  cases x with
  | error e =>
    constructor
    · intro h
      cases h
    · rintro ⟨a, h, -⟩
      cases h
  | ok a =>
    constructor
    · exact fun h ↦ ⟨a, rfl, h⟩
    · rintro ⟨a', h, hf⟩
      rw [Except.ok.inj h]
      exact hf

/-- What is known of some answer is known of the answer. -/
theorem of_exists_ok {x : Except ε α} {P : α → Prop} {b : α} (h : ∃ a, x = .ok a ∧ P a)
    (hb : x = .ok b) : P b := by
  obtain ⟨a, ha, hP⟩ := h
  obtain rfl := Except.ok.inj (ha.symm.trans hb)
  exact hP

/-- A list of readings succeeds where each of them does. -/
theorem mapM_eq_ok_iff {f : α → Except ε β} {xs : List α} {ys : List β} :
    xs.mapM f = .ok ys ↔ List.Forall₂ (fun x y ↦ f x = .ok y) xs ys := by
  induction xs generalizing ys with
  | nil =>
    rw [List.mapM_nil, List.forall₂_nil_left_iff]
    exact ⟨fun h ↦ (Except.ok.inj h).symm, fun h ↦ h ▸ rfl⟩
  | cons x xs ih =>
    rw [List.mapM_cons, List.forall₂_cons_left_iff, bind_eq_ok_iff]
    constructor
    · rintro ⟨y, hy, hrest⟩
      obtain ⟨rest, hxs, hys⟩ := bind_eq_ok_iff.mp hrest
      exact ⟨y, rest, hy, ih.mp hxs, (Except.ok.inj hys).symm⟩
    · rintro ⟨y, rest, hy, hxs, rfl⟩
      exact ⟨y, hy, bind_eq_ok_iff.mpr ⟨rest, ih.mpr hxs, rfl⟩⟩

/-- Reading the first indices one by one gives the list that has each answer in its place. -/
theorem mapM_range_eq_ok_iff {f : Nat → Except ε β} {n : Nat} {l : List β} :
    (List.range n).mapM f = .ok l ↔
      l.length = n ∧ ∀ (i : Nat) (hi : i < l.length), f i = .ok l[i] := by
  rw [mapM_eq_ok_iff, List.forall₂_iff_get]
  constructor
  · rintro ⟨hlen, h⟩
    rw [List.length_range] at hlen
    refine ⟨hlen.symm, fun i hi ↦ ?_⟩
    simpa using h i (by rwa [List.length_range, hlen]) hi
  · rintro ⟨hlen, h⟩
    refine ⟨by rw [List.length_range, hlen], fun i _ hi ↦ ?_⟩
    simpa using h i hi

end Except

namespace Sequence

variable {α : Type} {s : Sequence α} {l : List (α × α)}

/-- Both ordinates of the plane can be read at every index below the size. -/
def Readable (s : Sequence α) : Prop :=
  ∀ i < s.size, ∃ x y, s.x i = .ok x ∧ s.y i = .ok y

theorem point_eq_ok_iff {i : Nat} {p : α × α} :
    s.point i = .ok p ↔ s.x i = .ok p.1 ∧ s.y i = .ok p.2 := by
  rw [point, bind_eq_ok_iff]
  constructor
  · rintro ⟨x, hx, hrest⟩
    obtain ⟨y, hy, hp⟩ := bind_eq_ok_iff.mp hrest
    obtain rfl := Except.ok.inj hp
    exact ⟨hx, hy⟩
  · rintro ⟨hx, hy⟩
    exact ⟨p.1, hx, bind_eq_ok_iff.mpr ⟨p.2, hy, rfl⟩⟩

/-- A listed sequence keeps its word. -/
theorem readable_ofCoordinates (layout : Layout) (coordinates : List (Coordinate α)) :
    (ofCoordinates layout coordinates).Readable := by
  intro i hi
  have hread : (ofCoordinates layout coordinates).point i = .ok _ :=
    point_ofCoordinates (List.getElem?_eq_getElem hi)
  exact ⟨_, _, point_eq_ok_iff.mp hread⟩

/-- All points are read where each of them is. -/
theorem points_eq_ok_iff :
    s.points = .ok l ↔
      l.length = s.size ∧
        ∀ (i : Nat) (hi : i < l.length), s.x i = .ok l[i].1 ∧ s.y i = .ok l[i].2 := by
  rw [points, mapM_range_eq_ok_iff]
  simp only [point_eq_ok_iff]

/-- What holds at every index holds of every listed place, and the other way round. -/
theorem forall_read_iff (hl : s.points = .ok l) (P : α → α → Prop) :
    (∀ i < s.size, ∃ x y, (s.x i = .ok x ∧ s.y i = .ok y) ∧ P x y) ↔ ∀ p ∈ l, P p.1 p.2 := by
  obtain ⟨hsize, hread⟩ := points_eq_ok_iff.mp hl
  constructor
  · intro h p hp
    obtain ⟨i, hi, rfl⟩ := List.getElem_of_mem hp
    obtain ⟨x, y, ⟨hx, hy⟩, hxy⟩ := h i (hsize ▸ hi)
    rw [Except.ok.inj (hx.symm.trans (hread i hi).1),
      Except.ok.inj (hy.symm.trans (hread i hi).2)] at hxy
    exact hxy
  · intro h i hi
    have hi' : i < l.length := hsize ▸ hi
    exact ⟨_, _, hread i hi', h _ (List.getElem_mem hi')⟩

/-- The places of a sequence that keeps its word can be listed. -/
theorem exists_points (h : s.Readable) : ∃ l, s.points = .ok l := by
  -- by induction on how many indices have been read; the reading grows at its end
  suffices ∀ n, n ≤ s.size → ∃ l, (List.range n).mapM s.point = .ok l from
    this s.size (Nat.le_refl _)
  intro n
  induction n with
  | zero => exact fun _ ↦ ⟨[], rfl⟩
  | succ n ih =>
    intro hn
    obtain ⟨l, hl⟩ := ih (by omega)
    obtain ⟨x, y, hx, hy⟩ := h n (by omega)
    refine ⟨l ++ [(x, y)], ?_⟩
    rw [List.range_succ, List.mapM_append, hl, List.mapM_cons, List.mapM_nil,
      (point_eq_ok_iff (p := (x, y))).mpr ⟨hx, hy⟩]
    rfl

/-- Where something holds of every coordinate that is read, the places can be listed and it holds of
all of them. -/
theorem exists_points_of_forall {P : α → α → Prop}
    (h : ∀ i < s.size, ∃ x y, (s.x i = .ok x ∧ s.y i = .ok y) ∧ P x y) :
    ∃ l, s.points = .ok l ∧ ∀ p ∈ l, P p.1 p.2 := by
  have hread : s.Readable := by
    intro i hi
    obtain ⟨x, y, hxy, -⟩ := h i hi
    exact ⟨x, y, hxy⟩
  obtain ⟨l, hl⟩ := exists_points hread
  exact ⟨l, hl, (forall_read_iff hl P).mp h⟩

end Sequence

end Geospatial
