import Geospatial.Proofs.Bounds.Lookup

/-!
# The order of boxes

Boxes are compared through their sort keys: a null box has the empty key, any other box its lower
and then its upper bounds. The order of boxes is the lexicographic order of their keys
(`order_eq_compareLex`), and boxes are equal when their keys are, bound by bound
(`equals_iff_sortKey`). Null boxes come first because the empty key does, and what stands in their
bounds does not matter because no key holds it.

**The answer turns round with the boxes, whatever they hold.** Beyond that the order needs numbers:
an undefined bound ties with every other one, and so would all boxes between which it decides. Boxes
that are null or hold four numbers are totally ordered, and those that tie are those that are equal.
-/

namespace Geospatial

/-! ### Comparing lists -/

section Lists

variable {α β : Type}

/-- Elements can be mapped before they are compared or as they are. -/
theorem compareLex_map (cmp : β → β → Ordering) (f : α → β) (as bs : List α) :
    List.compareLex cmp (as.map f) (bs.map f) =
      List.compareLex (fun a b ↦ cmp (f a) (f b)) as bs := by
  induction as generalizing bs with
  | nil => cases bs <;> rfl
  | cons a as ih =>
    cases bs with
    | nil => rfl
    | cons b bs =>
      rw [List.map_cons, List.map_cons, List.compareLex_cons_cons, List.compareLex_cons_cons, ih]

/-- Lists tie when they do element by element. -/
theorem compareLex_eq_eq_iff {cmp : α → α → Ordering} {as bs : List α} :
    List.compareLex cmp as bs = .eq ↔ List.Forall₂ (fun a b ↦ cmp a b = .eq) as bs := by
  induction as generalizing bs with
  | nil => cases bs <;> simp [List.compareLex]
  | cons a as ih =>
    cases bs with
    | nil => simp [List.compareLex]
    | cons b bs =>
      rw [List.compareLex_cons_cons, Ordering.then_eq_eq, ih, List.forall₂_cons]

end Lists

namespace Bounds

variable {α : Type} [Ordinate α] {a b c : Bounds α}

/-- A box that is null or has four numbers for bounds. -/
def Numeric (a : Bounds α) : Prop :=
  a.isNull = true ∨ Ordinate.IsNumber a.minX ∧ Ordinate.IsNumber a.maxX ∧
    Ordinate.IsNumber a.minY ∧ Ordinate.IsNumber a.maxY

instance (a : Bounds α) : Decidable a.Numeric :=
  inferInstanceAs (Decidable (_ ∨ _))

/-! ### Sort keys -/

/-- What boxes are sorted by. -/
def sortKey (a : Bounds α) : List α :=
  if a.isNull then [] else [a.minX, a.minY, a.maxX, a.maxY]

omit [Ordinate α] in
/-- Null boxes come first, since nothing precedes an empty key. -/
theorem sortKey_of_isNull (h : a.isNull = true) : a.sortKey = [] :=
  if_pos h

omit [Ordinate α] in
theorem sortKey_of_not_isNull (h : a.isNull = false) :
    a.sortKey = [a.minX, a.minY, a.maxX, a.maxY] := by
  rw [sortKey, h]
  rfl

/-- **The order of boxes is the lexicographic order of their keys.** -/
theorem order_eq_compareLex (a b : Bounds α) :
    a.order b = List.compareLex Ordinate.compareOrTie a.sortKey b.sortKey := by
  cases ha : a.isNull with
  | true =>
    rw [order_of_isNull_left ha, sortKey_of_isNull ha, sortKey]
    split
    · rfl
    · rfl
  | false =>
    rw [sortKey_of_not_isNull ha]
    cases hb : b.isNull with
    | true =>
      rw [order_of_isNull_right hb, sortKey_of_isNull hb, ha]
      rfl
    | false =>
      have hlength : [a.minX, a.minY, a.maxX, a.maxY].length =
          [b.minX, b.minY, b.maxX, b.maxY].length := rfl
      rw [sortKey_of_not_isNull hb, order, ha, hb, ← Ordinate.compareInTurn_zip hlength]
      rfl

/-- **Boxes are equal when their keys are.** -/
theorem equals_iff_sortKey :
    a.equals b = true ↔ List.Forall₂ (fun u v ↦ (u == v) = true) a.sortKey b.sortKey := by
  cases ha : a.isNull with
  | true =>
    rw [equals_of_isNull_left ha, sortKey_of_isNull ha, List.forall₂_nil_left_iff, sortKey]
    split
    next hb => exact iff_of_true hb rfl
    next hb => exact iff_of_false hb (List.cons_ne_nil _ _)
  | false =>
    rw [sortKey_of_not_isNull ha]
    cases hb : b.isNull with
    | true =>
      rw [equals_of_isNull_right hb, sortKey_of_isNull hb, List.forall₂_nil_right_iff, ha]
      exact iff_of_false Bool.false_ne_true (List.cons_ne_nil _ _)
    | false =>
      -- equality looks at the upper bounds first
      simp only [sortKey_of_not_isNull hb, equals, ha, hb, Bool.false_eq_true, if_false,
        Bool.not_false, Bool.true_and, Bool.and_eq_true, List.forall₂_cons, List.Forall₂.nil,
        and_true]
      constructor
      · rintro ⟨⟨⟨hmaxX, hmaxY⟩, hminX⟩, hminY⟩
        exact ⟨hminX, hminY, hmaxX, hmaxY⟩
      · rintro ⟨hminX, hminY, hmaxX, hmaxY⟩
        exact ⟨⟨⟨hmaxX, hmaxY⟩, hminX⟩, hminY⟩

/-- A numeric box is ordered by numbers alone. -/
theorem Numeric.isNumber_sortKey (ha : a.Numeric) : ∀ v ∈ a.sortKey, Ordinate.IsNumber v := by
  rw [sortKey]
  split
  next => exact fun v hv ↦ absurd hv List.not_mem_nil
  next hnot =>
    obtain ⟨hminX, hmaxX, hminY, hmaxY⟩ := ha.resolve_left hnot
    simp only [List.forall_mem_cons, List.not_mem_nil, false_implies, implies_true, and_true]
    exact ⟨hminX, hminY, hmaxX, hmaxY⟩

/-- The key of a box whose bounds are numbers. -/
def numericKey (a : {a : Bounds α // a.Numeric}) : List {v : α // Ordinate.IsNumber v} :=
  a.1.sortKey.attachWith _ a.2.isNumber_sortKey

theorem map_numericKey (a : {a : Bounds α // a.Numeric}) :
    (numericKey a).map Subtype.val = a.1.sortKey :=
  List.attachWith_map_subtype_val _

/-- The order of boxes, on those whose bounds are numbers. -/
def orderNumeric (a b : {a : Bounds α // a.Numeric}) : Ordering :=
  a.1.order b.1

/-- On numeric boxes the comparison is lexicographic in the keys, which makes its laws those of the
comparison of numbers. -/
theorem orderNumeric_eq_compareLex (a b : {a : Bounds α // a.Numeric}) :
    orderNumeric a b = List.compareLex (fun u v ↦ Ordinate.compareOrTie u.1 v.1)
      (numericKey a) (numericKey b) := by
  rw [orderNumeric, order_eq_compareLex, ← map_numericKey, ← map_numericKey, compareLex_map]

/-! ### The laws of the order -/

variable [LawfulOrdinate α]

/-- The answer turns round with the boxes. -/
theorem order_swap (a b : Bounds α) : b.order a = (a.order b).swap := by
  rw [order_eq_compareLex, order_eq_compareLex]
  exact Std.OrientedCmp.eq_swap

/-- **Boxes with numbers are totally ordered.** -/
instance : Std.TransCmp (orderNumeric (α := α)) where
  eq_swap := order_swap ..
  isLE_trans := by
    intro a b c hab hbc
    rw [orderNumeric_eq_compareLex] at *
    exact Std.TransCmp.isLE_trans hab hbc

/-- A chain is in order from end to end, and ties from end to end only if it ties all along. -/
theorem orderNumeric_chain {a b c : {a : Bounds α // a.Numeric}}
    (hab : (orderNumeric a b).isLE = true) (hbc : (orderNumeric b c).isLE = true) :
    (orderNumeric a c).isLE = true ∧
      (orderNumeric a c = .eq → orderNumeric a b = .eq ∧ orderNumeric b c = .eq) := by
  refine ⟨Std.TransCmp.isLE_trans hab hbc, fun hac ↦ ?_⟩
  have hca : (orderNumeric c a).isLE = true := by
    rw [Std.OrientedCmp.eq_comm.mp hac]
    rfl
  exact ⟨Std.OrientedCmp.isLE_antisymm hab (Std.TransCmp.isLE_trans hbc hca),
    Std.OrientedCmp.isLE_antisymm hbc (Std.TransCmp.isLE_trans hca hab)⟩

/-- **Boxes with numbers tie when they are equal.** -/
theorem orderNumeric_eq_eq_iff (a b : {a : Bounds α // a.Numeric}) :
    orderNumeric a b = .eq ↔ a.1.equals b.1 = true := by
  have htie (u v : {v : α // Ordinate.IsNumber v}) :
      Ordinate.compareOrTie u.1 v.1 = .eq ↔ (u.1 == v.1) = true :=
    Ordinate.compareOrTie_eq_eq_iff_beq u.2 v.2
  rw [orderNumeric_eq_compareLex, compareLex_eq_eq_iff, equals_iff_sortKey, ← map_numericKey a,
    ← map_numericKey b, List.forall₂_map_left_iff, List.forall₂_map_right_iff]
  simp only [htie]

end Bounds

/-! ### Boxes of either kind -/

namespace BoundingBox

variable {α : Type} [Ordinate α] {a b : BoundingBox α} {A B : Bounds α}

theorem order?_of_reads (ha : a.Reads A) (hb : b.Reads B) :
    a.order? b = .ok (some (A.order B)) := by
  rw [order?, order_of_reads ha hb]
  rfl

variable [LawfulOrdinate α]

/-- The answer turns round with the boxes. -/
theorem order_swap {o : Ordering} (h : a.order b = .ok o) : b.order a = .ok o.swap := by
  cases ha : a.isNull <;> cases hb : b.isNull
  case false.false =>
    obtain ⟨A, B, hA, hB⟩ := exists_reads_of_order ha hb h
    obtain rfl := Except.ok.inj ((order_of_reads hA hB).symm.trans h)
    rw [order_of_reads hB hA, Bounds.order_swap]
  -- beside a null box no bound is looked up, so the other box need not be readable
  all_goals
    rw [order, ha, hb] at h
    cases h
    rw [order, ha, hb]
    rfl

/-- **The order of boxes is total and agrees with equality.** It turns round with the boxes whatever
they hold. On boxes that are null or hold numbers it is transitive, those that tie are those that
are equal, and null boxes come first. Boxes of either kind are compared by what is read of them,
which for a scanned box is always something. -/
theorem order_total_on_numbers :
    (∀ a b : Bounds Float, b.order a = (a.order b).swap) ∧
    (∀ a b c : Bounds Float, a.Numeric → b.Numeric → c.Numeric →
      (a.order b).isLE = true → (b.order c).isLE = true →
        (a.order c).isLE = true ∧ (a.order c = .eq → a.order b = .eq ∧ b.order c = .eq)) ∧
    (∀ a b : Bounds Float, a.Numeric → b.Numeric → (a.order b = .eq ↔ a.equals b = true)) ∧
    (∀ a b : Bounds Float, a.isNull = true → b.isNull = false → a.order b = .lt) ∧
    (∀ (a b : BoundingBox Float) (o : Ordering), a.order b = .ok o → b.order a = .ok o.swap) ∧
    (∀ (a b : BoundingBox Float) (A B : Bounds Float), a.Reads A → b.Reads B →
      a.order b = .ok (A.order B) ∧ a.order? b = .ok (some (A.order B)) ∧
      a.equals b = .ok (A.equals B) ∧
      (A.Numeric → B.Numeric → (a.order? b = .ok (some .eq) ↔ a.equals b = .ok true))) ∧
    (∀ e : Envelope Float, (envelope e).Reads e.bounds) ∧
    ∀ (s : Sequence Float) (b : IndexedBox Float), s.Readable → IndexedBox.ofSequence s = .ok b →
      ∃ B, (indexed b).Reads B := by
  refine ⟨Bounds.order_swap, ?_, ?_, ?_, fun _ _ _ ↦ order_swap, ?_, reads_envelope,
    fun _ _ ↦ exists_reads_scan⟩
  · intro a b c ha hb hc hab hbc
    exact Bounds.orderNumeric_chain (a := ⟨a, ha⟩) (b := ⟨b, hb⟩) (c := ⟨c, hc⟩) hab hbc
  · exact fun a b ha hb ↦ Bounds.orderNumeric_eq_eq_iff ⟨a, ha⟩ ⟨b, hb⟩
  · intro a b ha hb
    rw [Bounds.order_of_isNull_left ha, hb]
    rfl
  · intro a b A B hA hB
    have horder := order?_of_reads hA hB
    have hequals := equals_of_reads hA hB
    refine ⟨order_of_reads hA hB, horder, hequals, fun hA' hB' ↦ ?_⟩
    rw [horder, hequals, Except.ok.injEq, Except.ok.injEq, Option.some.injEq]
    exact Bounds.orderNumeric_eq_eq_iff ⟨A, hA'⟩ ⟨B, hB'⟩

/-- A box read at a negative zero ties with the envelope that has a positive one, and a null
envelope with undefined bounds comes before both. -/
theorem order_total_on_numbers_negative_zero :
    let s : Sequence Float := .ofCoordinates .xy [{ x := -0.0, y := 2.0 }, { x := 1.0, y := 0.0 }]
    let e : Envelope Float := ⟨0.0, 1.0, 0.0, 2.0⟩
    let null : Envelope Float := ⟨1.0, 0.0, Ordinate.undefined, Ordinate.undefined⟩
    ∃ b, IndexedBox.ofSequence s = .ok b ∧
      (indexed b).order? (envelope e) = .ok (some .eq) ∧
      (indexed b).equals (envelope e) = .ok true ∧
      null.bounds.order e.bounds = .lt ∧
      (envelope null).order (indexed b) = .ok .lt ∧
      (indexed b).order (envelope null) = .ok .gt := by
  intro s e null
  obtain ⟨-, -, -, hfirst, hswap, hreads, hread, -⟩ := order_total_on_numbers
  let b : IndexedBox Float := ⟨s, some ⟨0, 1, 1, 0⟩⟩
  have hB : (indexed b).Reads ⟨false, -0.0, 1.0, 0.0, 2.0⟩ := bounds_eq_ok_iff.mp rfl
  obtain ⟨-, -, hequals, hties⟩ := hreads _ _ _ _ hB (hread e)
  have hequal : (indexed b).equals (envelope e) = .ok true := by
    rw [hequals]
    exact congrArg Except.ok (by decide)
  have hnull : null.bounds.order (⟨false, -0.0, 1.0, 0.0, 2.0⟩ : Bounds Float) = .lt :=
    hfirst _ _ (by decide) rfl
  have hbefore : (envelope null).order (indexed b) = .ok .lt := by
    rw [(hreads _ _ _ _ (hread null) hB).1, hnull]
  exact ⟨b, rfl, (hties (by decide) (by decide)).mpr hequal, hequal,
    hfirst _ _ (by decide) (by decide), hbefore, hswap _ _ _ hbefore⟩

end BoundingBox

end Geospatial
