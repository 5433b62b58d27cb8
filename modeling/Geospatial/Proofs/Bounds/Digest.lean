import Geospatial.Proofs.Binary.Words
import Geospatial.Proofs.Bounds.Order

/-!
# The digest of boxes

Boxes have the same digest when their sort keys have the same words (`digest_eq_iff_sortKey`), and
they are equal when their sort keys are equal number by number. So everything comes down to single
numbers, where the word of one tells what it equals. The byte in front tells null boxes from others,
as the length of the key does.

**Equality has to be shared by both kinds of boxes,** since a box can be stored as one kind and
looked up as the other. It is symmetric and transitive across them (`equals_comm`, `equals_trans`),
but reflexive only on boxes without undefined bounds.
-/

namespace Geospatial

/-- What holds along two lists holds from the first to the third. -/
theorem forall₂_trans {α : Type} {R : α → α → Prop} (hR : ∀ {a b c}, R a b → R b c → R a c)
    {as bs cs : List α} (h : List.Forall₂ R as bs) (h' : List.Forall₂ R bs cs) :
    List.Forall₂ R as cs := by
  induction h generalizing cs with
  | nil => exact h'
  | cons hab _ ih =>
    obtain ⟨c, cs, hbc, hrest, rfl⟩ := List.forall₂_cons_left_iff.mp h'
    exact .cons (hR hab hbc) (ih hrest)

namespace Bounds

/-! ### Equality -/

section

variable {α : Type} [Ordinate α] [LawfulOrdinate α] {a b c : Bounds α}

/-- Equality of boxes is transitive: bounds are compared as numbers on both sides. -/
theorem equals_trans (hab : a.equals b = true) (hbc : b.equals c = true) :
    a.equals c = true := by
  rw [equals_iff_sortKey] at *
  exact forall₂_trans (R := fun u v ↦ (u == v) = true) Ordinate.beq_trans hab hbc

end

/-! ### Digest -/

variable {a b : Bounds Float}

/-- A box that is not null is told by a byte and its four bounds. -/
theorem digest_of_not_isNull (h : a.isNull = false) :
    a.digest = [.byte 1, .ofFloat a.minX, .ofFloat a.maxX, .ofFloat a.minY, .ofFloat a.maxY] := by
  rw [digest, h]
  rfl

/-- **Boxes have the same digest when their keys have the same words.** -/
theorem digest_eq_iff_sortKey :
    a.digest = b.digest ↔
      List.Forall₂ (fun u v ↦ Word.ofFloat u = Word.ofFloat v) a.sortKey b.sortKey := by
  cases ha : a.isNull with
  | true =>
    rw [digest_of_isNull ha, sortKey_of_isNull ha, List.forall₂_nil_left_iff, digest, sortKey]
    split
    · exact iff_of_true rfl rfl
    · exact iff_of_false (by simp) (List.cons_ne_nil _ _)
  | false =>
    rw [digest_of_not_isNull ha, sortKey_of_not_isNull ha]
    cases hb : b.isNull with
    | true =>
      rw [digest_of_isNull hb, sortKey_of_isNull hb, List.forall₂_nil_right_iff]
      exact iff_of_false (by simp) (List.cons_ne_nil _ _)
    | false =>
      -- the words stand axis by axis, the key has the lower bounds first
      rw [digest_of_not_isNull hb, sortKey_of_not_isNull hb]
      simp only [List.cons.injEq, List.forall₂_cons, List.Forall₂.nil, and_true, true_and]
      exact and_congr_right fun _ ↦ and_left_comm

theorem digest_eq_of_equals (h : a.equals b = true) : a.digest = b.digest :=
  digest_eq_iff_sortKey.mpr <|
    (equals_iff_sortKey.mp h).imp fun _ _ ↦ Word.ofFloat_eq_of_beq

/-- It is enough that one of the boxes has numbers. -/
theorem equals_of_digest_eq (ha : a.Numeric) (h : a.digest = b.digest) : a.equals b = true := by
  rw [digest_eq_iff_sortKey, ← map_numericKey ⟨a, ha⟩, List.forall₂_map_left_iff] at h
  rw [equals_iff_sortKey, ← map_numericKey ⟨a, ha⟩, List.forall₂_map_left_iff]
  exact h.imp fun u _ ↦ (Word.ofFloat_eq_iff u.2).mp

end Bounds

namespace BoundingBox

variable {a b c : BoundingBox Float} {A : Bounds Float}

theorem digest_of_reads (ha : a.Reads A) : a.digest = .ok A.digest := by
  rw [digest, bounds_eq_ok_iff.mpr ha]
  rfl

/-- A box that has a digest can be read. -/
theorem exists_reads_of_digest {words : List Word} (h : a.digest = .ok words) :
    ∃ A, a.Reads A ∧ A.digest = words := by
  obtain ⟨A, hA, hwords⟩ := bind_eq_ok_iff.mp h
  exact ⟨A, bounds_eq_ok_iff.mp hA, Except.ok.inj hwords⟩

theorem equals_trans (hab : a.equals b = .ok true) (hbc : b.equals c = .ok true) :
    a.equals c = .ok true := by
  obtain ⟨A, B, hA, hB, h⟩ := equals_eq_ok_true_iff.mp hab
  obtain ⟨B', C, hB', hC, h'⟩ := equals_eq_ok_true_iff.mp hbc
  obtain rfl : B = B' := Except.ok.inj
    ((bounds_eq_ok_iff.mpr hB).symm.trans (bounds_eq_ok_iff.mpr hB'))
  exact equals_eq_ok_true_iff.mpr ⟨A, C, hA, hC, Bounds.equals_trans h h'⟩

/-- **The digest of boxes agrees with their equality, whichever kind they are.** Boxes found equal
have the same digest, and boxes with the same digest are found equal where the bounds of one of them
are numbers; equality is symmetric and transitive. Boxes that can be read have an answer to both
questions, and envelopes and scanned boxes can be read. -/
theorem digest_agrees_with_equality :
    (∀ a b : BoundingBox Float, a.equals b = .ok true →
      ∃ words, a.digest = .ok words ∧ b.digest = .ok words) ∧
    (∀ (a b : BoundingBox Float) (A : Bounds Float) (words : List Word), a.Reads A → A.Numeric →
      a.digest = .ok words → b.digest = .ok words → a.equals b = .ok true) ∧
    (∀ (a b : BoundingBox Float) (r : Bool), a.equals b = .ok r ↔ b.equals a = .ok r) ∧
    (∀ a b c : BoundingBox Float, a.equals b = .ok true → b.equals c = .ok true →
      a.equals c = .ok true) ∧
    (∀ (a b : BoundingBox Float) (A B : Bounds Float), a.Reads A → b.Reads B →
      a.equals b = .ok (A.equals B) ∧ a.digest = .ok A.digest) ∧
    (∀ e : Envelope Float, (envelope e).Reads e.bounds) ∧
    ∀ (s : Sequence Float) (b : IndexedBox Float), s.Readable → IndexedBox.ofSequence s = .ok b →
      ∃ B, (indexed b).Reads B := by
  refine ⟨?_, ?_, equals_comm, fun _ _ _ ↦ equals_trans, ?_, reads_envelope,
    fun _ _ ↦ exists_reads_scan⟩
  · intro a b h
    obtain ⟨A, B, hA, hB, hAB⟩ := equals_eq_ok_true_iff.mp h
    refine ⟨A.digest, digest_of_reads hA, ?_⟩
    rw [digest_of_reads hB, Bounds.digest_eq_of_equals hAB]
  · intro a b A words hA hnumeric ha hb
    obtain ⟨B, hB, rfl⟩ := exists_reads_of_digest hb
    have hwords : A.digest = B.digest := Except.ok.inj ((digest_of_reads hA).symm.trans ha)
    rw [equals_of_reads hA hB, Bounds.equals_of_digest_eq hnumeric hwords]
  · exact fun a b A B hA hB ↦ ⟨equals_of_reads hA hB, digest_of_reads hA⟩

/-- The box of a scanned sequence is equal to an envelope with another sign on a zero. Both are fed
as the positive zero, and a box of the same words is equal to both. -/
theorem digest_agrees_with_equality_negative_zero :
    let s : Sequence Float := .ofCoordinates .xy [{ x := -0.0, y := 2.0 }, { x := 1.0, y := 0.0 }]
    let b : IndexedBox Float := ⟨s, some ⟨0, 1, 1, 0⟩⟩
    let e : Envelope Float := ⟨0.0, 1.0, -0.0, 2.0⟩
    IndexedBox.ofSequence s = .ok b ∧
      (indexed b).equals (envelope e) = .ok true ∧
      (envelope e).equals (indexed b) = .ok true ∧
      ∃ words, (indexed b).digest = .ok words ∧ (envelope e).digest = .ok words ∧
        ∀ c : BoundingBox Float, c.digest = .ok words →
          (envelope e).equals c = .ok true ∧ (indexed b).equals c = .ok true := by
  intro s b e
  obtain ⟨hsame, hback, hcomm, htrans, hanswers, hread, -⟩ := digest_agrees_with_equality
  have hB : (indexed b).Reads ⟨false, -0.0, 1.0, 0.0, 2.0⟩ := bounds_eq_ok_iff.mp rfl
  have hequal : (indexed b).equals (envelope e) = .ok true := by
    rw [(hanswers _ _ _ _ hB (hread e)).1]
    exact congrArg Except.ok (by decide)
  obtain ⟨words, hb, he⟩ := hsame _ _ hequal
  refine ⟨rfl, hequal, (hcomm _ _ _).mp hequal, words, hb, he, fun c hc ↦ ?_⟩
  have hec := hback _ c _ words (hread e) (by decide) he hc
  exact ⟨hec, htrans _ _ _ hequal hec⟩

end BoundingBox

end Geospatial
