import Geospatial.BoundingBox
import Geospatial.Proofs.Extrema.Refinement
import Geospatial.Proofs.Ordinate.Compare

/-!
# Bounds that are looked up

Equality and the order of bounding boxes look bounds up as they go, so that a question can end in a
violation or in an answer that never touched one. Where both boxes can be read, they answer as their
readings do (`equals_of_reads`, `order_of_reads`), and every box that was scanned can be read
(`exists_reads_scan`).

**Equality does not depend on which box is asked,** not even for boxes that cannot be read: turned
round, it looks up the same bounds, as far as it did before (`equals_comm`).
-/

namespace Geospatial

/-! ### All of several questions -/

section Except

variable {ε β γ : Type} {p : β → Except ε Bool} {q : γ → Except ε Bool} {xs : List β} {ys : List γ}

/-- The first question that is not answered by yes is the last one. -/
theorem allM_cons_eq_ok_iff {x : β} {r : Bool} :
    (x :: xs).allM p = .ok r ↔
      p x = .ok true ∧ xs.allM p = .ok r ∨ p x = .ok false ∧ r = false := by
  rw [List.allM, bind_eq_ok_iff]
  constructor
  · rintro ⟨answer, hx, h⟩
    cases answer with
    | true => exact Or.inl ⟨hx, h⟩
    | false => exact Or.inr ⟨hx, (Except.ok.inj h).symm⟩
  · rintro (⟨hx, h⟩ | ⟨hx, rfl⟩)
    · exact ⟨true, hx, h⟩
    · exact ⟨false, hx, rfl⟩

/-- A check of all elements, each of which may fail, holds where every single one does. -/
theorem allM_eq_ok_true_iff : xs.allM p = .ok true ↔ ∀ x ∈ xs, p x = .ok true := by
  induction xs with
  | nil => exact iff_of_true rfl nofun
  | cons x xs ih =>
    rw [allM_cons_eq_ok_iff, List.forall_mem_cons, ih]
    exact or_iff_left fun h ↦ nomatch h.2

/-- Questions with the same answers one by one have the same answer together. -/
theorem allM_eq_ok_iff_of_forall₂ {r : Bool}
    (h : List.Forall₂ (fun x y ↦ ∀ r, p x = .ok r ↔ q y = .ok r) xs ys) :
    xs.allM p = .ok r ↔ ys.allM q = .ok r := by
  induction h with
  | nil => rfl
  | cons hxy _ ih => rw [allM_cons_eq_ok_iff, allM_cons_eq_ok_iff, hxy, hxy, ih]

/-- Questions that are all answered. -/
theorem allM_of_forall₂ {answer : γ → Bool}
    (h : List.Forall₂ (fun x y ↦ p x = .ok (answer y)) xs ys) :
    xs.allM p = .ok (ys.all answer) := by
  induction h with
  | nil => rfl
  | @cons x y xs ys hxy _ ih =>
    rw [allM_cons_eq_ok_iff, hxy, ih, List.all_cons]
    cases answer y with
    | true => exact Or.inl ⟨rfl, rfl⟩
    | false => exact Or.inr ⟨rfl, rfl⟩

end Except

namespace BoundingBox

variable {α : Type} [Ordinate α] {a b : BoundingBox α} {A B : Bounds α}

/-! ### Reading a box -/

/-- A box is read by looking up its bounds. -/
structure Reads (a : BoundingBox α) (A : Bounds α) : Prop where
  isNull : a.isNull = A.isNull
  minX : a.minX = .ok A.minX
  maxX : a.maxX = .ok A.maxX
  minY : a.minY = .ok A.minY
  maxY : a.maxY = .ok A.maxY

/-- Reading all four bounds succeeds exactly where each of them is read. -/
theorem bounds_eq_ok_iff : a.bounds = .ok A ↔ a.Reads A := by
  obtain ⟨n, minX, maxX, minY, maxY⟩ := A
  constructor
  · intro h
    cases a with
    | envelope e =>
      cases Except.ok.inj h
      exact ⟨rfl, rfl, rfl, rfl, rfl⟩
    | indexed b =>
      obtain ⟨minX, hminX, h⟩ := bind_eq_ok_iff.mp h
      obtain ⟨maxX, hmaxX, h⟩ := bind_eq_ok_iff.mp h
      obtain ⟨minY, hminY, h⟩ := bind_eq_ok_iff.mp h
      obtain ⟨maxY, hmaxY, h⟩ := bind_eq_ok_iff.mp h
      cases Except.ok.inj h
      exact ⟨rfl, hminX, hmaxX, hminY, hmaxY⟩
  · rintro ⟨rfl, hminX, hmaxX, hminY, hmaxY⟩
    cases a with
    | envelope e =>
      cases Except.ok.inj hminX
      cases Except.ok.inj hmaxX
      cases Except.ok.inj hminY
      cases Except.ok.inj hmaxY
      rfl
    | indexed b =>
      exact bind_eq_ok_iff.mpr ⟨_, hminX, bind_eq_ok_iff.mpr ⟨_, hmaxX,
        bind_eq_ok_iff.mpr ⟨_, hminY, bind_eq_ok_iff.mpr ⟨_, hmaxY, rfl⟩⟩⟩⟩

theorem reads_envelope (e : Envelope α) : (envelope e).Reads e.bounds :=
  bounds_eq_ok_iff.mp rfl

/-- A null box can always be read: it owns its bounds or has none. -/
theorem exists_reads_of_isNull (h : a.isNull = true) : ∃ A, a.Reads A := by
  cases a with
  | envelope e => exact ⟨_, reads_envelope e⟩
  | indexed b =>
    obtain ⟨s, ix⟩ := b
    obtain rfl := Option.isNone_iff_eq_none.mp h
    exact ⟨⟨true, _, _, _, _⟩, rfl, rfl, rfl, rfl, rfl⟩

/-- **What was scanned can be read.** -/
theorem exists_reads_scan {s : Sequence Float} {b : IndexedBox Float} (hs : s.Readable)
    (hb : IndexedBox.ofSequence s = .ok b) : ∃ A, (indexed b).Reads A := by
  obtain ⟨l, hl⟩ := Sequence.exists_points hs
  obtain ⟨b', A, hrefines⟩ := IndexedBox.exists_refines hl
  obtain rfl := Except.ok.inj (hb.symm.trans hrefines.scanned)
  exact ⟨A, bounds_eq_ok_iff.mp hrefines.read⟩

/-! ### Equality -/

/-- Two values that are looked up can be compared where both are found. -/
theorem agree_eq_ok_iff {u v : Except Violation α} {r : Bool} :
    agree u v = .ok r ↔ ∃ x y, u = .ok x ∧ v = .ok y ∧ (x == y) = r := by
  rw [agree, bind_eq_ok_iff]
  constructor
  · rintro ⟨x, hx, h⟩
    obtain ⟨y, hy, h⟩ := bind_eq_ok_iff.mp h
    exact ⟨x, y, hx, hy, Except.ok.inj h⟩
  · rintro ⟨x, y, hx, hy, rfl⟩
    exact ⟨x, hx, bind_eq_ok_iff.mpr ⟨y, hy, rfl⟩⟩

/-- Boxes that can be read are as equal as their readings. -/
theorem equals_of_reads (ha : a.Reads A) (hb : b.Reads B) : a.equals b = .ok (A.equals B) := by
  rw [equals, Bounds.equals, ha.isNull, hb.isNull]
  split
  · rfl
  · split
    next hB =>
      rw [hB]
      rfl
    next hB =>
      have hall : List.Forall₂ (fun (x : _ × _) (y : α × α) ↦ agree x.1 x.2 = .ok (y.1 == y.2))
          [(a.maxX, b.maxX), (a.maxY, b.maxY), (a.minX, b.minX), (a.minY, b.minY)]
          [(A.maxX, B.maxX), (A.maxY, B.maxY), (A.minX, B.minX), (A.minY, B.minY)] :=
        .cons (agree_eq_ok_iff.mpr ⟨_, _, ha.maxX, hb.maxX, rfl⟩) <|
        .cons (agree_eq_ok_iff.mpr ⟨_, _, ha.maxY, hb.maxY, rfl⟩) <|
        .cons (agree_eq_ok_iff.mpr ⟨_, _, ha.minX, hb.minX, rfl⟩) <|
        .cons (agree_eq_ok_iff.mpr ⟨_, _, ha.minY, hb.minY, rfl⟩) .nil
      rw [allM_of_forall₂ hall, Bool.eq_false_of_not_eq_true hB]
      simp only [List.all_cons, List.all_nil, Bool.and_true, Bool.and_assoc, Bool.not_false,
        Bool.true_and]

/-- What is found equal can be read on both sides. -/
theorem equals_eq_ok_true_iff :
    a.equals b = .ok true ↔ ∃ A B, a.Reads A ∧ b.Reads B ∧ A.equals B = true := by
  constructor
  · intro h
    suffices ∃ A B, a.Reads A ∧ b.Reads B by
      obtain ⟨A, B, hA, hB⟩ := this
      exact ⟨A, B, hA, hB, Except.ok.inj ((equals_of_reads hA hB).symm.trans h)⟩
    rw [equals] at h
    split at h
    next ha =>
      obtain ⟨A, hA⟩ := exists_reads_of_isNull ha
      obtain ⟨B, hB⟩ := exists_reads_of_isNull (Except.ok.inj h)
      exact ⟨A, B, hA, hB⟩
    next ha =>
      split at h
      · cases h
      · simp only [allM_eq_ok_true_iff, List.forall_mem_cons, agree_eq_ok_iff] at h
        obtain ⟨⟨u, v, hu, hv, -⟩, ⟨u', v', hu', hv', -⟩, ⟨w, z, hw, hz, -⟩,
          ⟨w', z', hw', hz', -⟩, -⟩ := h
        exact ⟨⟨_, _, _, _, _⟩, ⟨_, _, _, _, _⟩, ⟨rfl, hw, hu, hw', hu'⟩, ⟨rfl, hz, hv, hz', hv'⟩⟩
  · rintro ⟨A, B, hA, hB, h⟩
    rw [equals_of_reads hA hB, h]

/-- In which order they are looked up does not show when both are found. -/
theorem agree_comm [LawfulOrdinate α] (u v : Except Violation α) (r : Bool) :
    agree u v = .ok r ↔ agree v u = .ok r := by
  rw [agree_eq_ok_iff, agree_eq_ok_iff, exists_comm]
  refine exists₂_congr fun y x ↦ ?_
  rw [Ordinate.beq_comm x y, and_left_comm]

/-- Turned round, equality looks up the same bounds, as far as it did before. -/
theorem equals_comm [LawfulOrdinate α] (a b : BoundingBox α) (r : Bool) :
    a.equals b = .ok r ↔ b.equals a = .ok r := by
  have hall : List.Forall₂
      (fun x y : Except Violation α × Except Violation α ↦
        ∀ r, agree x.1 x.2 = .ok r ↔ agree y.1 y.2 = .ok r)
      [(a.maxX, b.maxX), (a.maxY, b.maxY), (a.minX, b.minX), (a.minY, b.minY)]
      [(b.maxX, a.maxX), (b.maxY, a.maxY), (b.minX, a.minX), (b.minY, a.minY)] :=
    .cons (agree_comm _ _) <| .cons (agree_comm _ _) <| .cons (agree_comm _ _) <|
    .cons (agree_comm _ _) .nil
  rw [equals, equals]
  cases a.isNull
  · cases b.isNull
    · exact allM_eq_ok_iff_of_forall₂ hall
    · rfl
  · cases b.isNull
    · rfl
    · rfl

/-! ### Order -/

omit [Ordinate α] in
theorem beside_eq_ok_iff {u v : Except Violation α} {p : α × α} :
    beside u v = .ok p ↔ u = .ok p.1 ∧ v = .ok p.2 := by
  rw [beside, bind_eq_ok_iff]
  constructor
  · rintro ⟨x, hx, h⟩
    obtain ⟨y, hy, h⟩ := bind_eq_ok_iff.mp h
    cases Except.ok.inj h
    exact ⟨hx, hy⟩
  · rintro ⟨hx, hy⟩
    exact ⟨p.1, hx, bind_eq_ok_iff.mpr ⟨p.2, hy, rfl⟩⟩

/-- Boxes that can be read are ordered as their readings are. -/
theorem order_of_reads (ha : a.Reads A) (hb : b.Reads B) : a.order b = .ok (A.order B) := by
  have hall : List.Forall₂ (fun (x : _ × _) (y : α × α) ↦ beside x.1 x.2 = .ok y)
      [(a.minX, b.minX), (a.minY, b.minY), (a.maxX, b.maxX), (a.maxY, b.maxY)]
      [(A.minX, B.minX), (A.minY, B.minY), (A.maxX, B.maxX), (A.maxY, B.maxY)] :=
    .cons (beside_eq_ok_iff.mpr ⟨ha.minX, hb.minX⟩) <|
    .cons (beside_eq_ok_iff.mpr ⟨ha.minY, hb.minY⟩) <|
    .cons (beside_eq_ok_iff.mpr ⟨ha.maxX, hb.maxX⟩) <|
    .cons (beside_eq_ok_iff.mpr ⟨ha.maxY, hb.maxY⟩) .nil
  rw [order, Bounds.order, ha.isNull, hb.isNull, mapM_eq_ok_iff.mpr hall]
  cases A.isNull
  · cases B.isNull
    · rfl
    · rfl
  · cases B.isNull
    · rfl
    · rfl

/-- Boxes of which neither is null are read to be ordered. -/
theorem exists_reads_of_order {o : Ordering} (ha : a.isNull = false) (hb : b.isNull = false)
    (h : a.order b = .ok o) : ∃ A B, a.Reads A ∧ b.Reads B := by
  simp only [order, ha, hb] at h
  obtain ⟨pairs, hpairs, -⟩ := bind_eq_ok_iff.mp h
  have hall := mapM_eq_ok_iff.mp hpairs
  simp only [List.forall₂_cons_left_iff, List.forall₂_nil_left_iff, beside_eq_ok_iff] at hall
  obtain ⟨p, _, ⟨hminX, hminX'⟩, ⟨q, _, ⟨hminY, hminY'⟩, ⟨r, _, ⟨hmaxX, hmaxX'⟩,
    ⟨s, _, ⟨hmaxY, hmaxY'⟩, -⟩, -⟩, -⟩, -⟩ := hall
  exact ⟨⟨false, _, _, _, _⟩, ⟨false, _, _, _, _⟩, ⟨ha, hminX, hmaxX, hminY, hmaxY⟩,
    ⟨hb, hminX', hmaxX', hminY', hmaxY'⟩⟩

end BoundingBox

end Geospatial
