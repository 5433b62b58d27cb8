import Geospatial.Ordinate

/-!
# The laws of comparison

The definitions over `Ordinate` assume no law. Proofs do, and `LawfulOrdinate` says which: the
comparisons are those of a linear preorder on the values that compare with themselves, and every
other value compares with nothing. Where a distance is measured, `GradualOrdinate` adds that it does
not vanish between values that differ.

**A number is a value that is at most itself.** Totality is asked of numbers alone, so the classes
leave room for undefined values, and for two values that are equal without being the same.

* `lt_iff_not_le` — between numbers, one comparison is the negation of the other;
* `le_lesser_iff`, `greater_le_iff` — the smaller of two numbers is their greatest lower bound and
  the greater one their least upper bound;
* `inOrder_fst_le`, `le_inOrder_snd` — which values lie between two numbers does not depend on the
  order in which the two are given.
-/

namespace Geospatial

/-- The comparisons are one linear preorder, on the values that compare with themselves. -/
class LawfulOrdinate (α : Type) [Ordinate α] : Prop where
  le_trans {a b c : α} : a ≤ b → b ≤ c → a ≤ c
  lt_iff_le_not_ge {a b : α} : a < b ↔ a ≤ b ∧ ¬b ≤ a
  beq_iff_le_ge {a b : α} : (a == b) = true ↔ a ≤ b ∧ b ≤ a
  le_self_left {a b : α} : a ≤ b → a ≤ a
  le_self_right {a b : α} : a ≤ b → b ≤ b
  le_total {a b : α} : a ≤ a → b ≤ b → a ≤ b ∨ b ≤ a

/-- Differences and diagonals do not vanish: the difference of two values in order is positive, and
so is the diagonal over two positive sides. -/
class GradualOrdinate (α : Type) [Ordinate α] : Prop extends LawfulOrdinate α where
  zero_lt_sub {a b : α} : a < b → 0.0 < b - a
  zero_lt_hypotenuse {a b : α} : 0.0 < a → 0.0 < b → 0.0 < Ordinate.hypotenuse a b
  zero_lt_infinity : (0.0 : α) < Ordinate.infinity

namespace Ordinate

variable {α : Type} [Ordinate α]

/-- The value compares with itself. -/
def IsNumber (a : α) : Prop :=
  a ≤ a

instance (a : α) : Decidable (IsNumber a) :=
  inferInstanceAs (Decidable (a ≤ a))

/-- Either of the two values is chosen. -/
theorem lesser_eq_or (a b : α) : lesser a b = a ∨ lesser a b = b := by
  rw [lesser]
  split
  · exact Or.inl rfl
  · exact Or.inr rfl

theorem greater_eq_or (a b : α) : greater a b = a ∨ greater a b = b := by
  rw [greater]
  split
  · exact Or.inl rfl
  · exact Or.inr rfl

/-- The smaller of two values is the first one once they are put in order. -/
theorem lesser_eq_inOrder_fst (a b : α) : lesser a b = (inOrder a b).1 := by
  rw [lesser, inOrder]
  split
  · rfl
  · rfl

/-- The greater of two values is the last one once they are put in order the other way round. -/
theorem greater_eq_inOrder_snd (a b : α) : greater a b = (inOrder b a).2 := by
  rw [greater, inOrder]
  split
  · rfl
  · rfl

theorem isNumber_lesser {a b : α} (ha : IsNumber a) (hb : IsNumber b) : IsNumber (lesser a b) := by
  rcases lesser_eq_or a b with h | h
  · rwa [h]
  · rwa [h]

theorem isNumber_greater {a b : α} (ha : IsNumber a) (hb : IsNumber b) :
    IsNumber (greater a b) := by
  rcases greater_eq_or a b with h | h
  · rwa [h]
  · rwa [h]

variable [LawfulOrdinate α] {a b c : α}

/-! ### From one comparison to another -/

theorem le_trans (hab : a ≤ b) (hbc : b ≤ c) : a ≤ c :=
  LawfulOrdinate.le_trans hab hbc

/-- What compares is a number. -/
theorem isNumber_left (h : a ≤ b) : IsNumber a :=
  LawfulOrdinate.le_self_left h

theorem isNumber_right (h : a ≤ b) : IsNumber b :=
  LawfulOrdinate.le_self_right h

/-- A strict comparison implies the other, although the two are decided separately. -/
theorem le_of_lt (h : a < b) : a ≤ b :=
  (LawfulOrdinate.lt_iff_le_not_ge.mp h).1

theorem not_le_of_lt (h : a < b) : ¬b ≤ a :=
  (LawfulOrdinate.lt_iff_le_not_ge.mp h).2

theorem not_lt_of_le (h : a ≤ b) : ¬b < a :=
  fun hlt ↦ not_le_of_lt hlt h

theorem lt_irrefl : ¬a < a :=
  fun h ↦ not_le_of_lt h (le_of_lt h)

theorem lt_trans (hab : a < b) (hbc : b < c) : a < c := by
  refine LawfulOrdinate.lt_iff_le_not_ge.mpr ⟨le_trans (le_of_lt hab) (le_of_lt hbc), ?_⟩
  exact fun hca ↦ not_le_of_lt hab (le_trans (le_of_lt hbc) hca)

/-- Comparisons of the two kinds can be chained. -/
theorem lt_of_le_of_lt (hab : a ≤ b) (hbc : b < c) : a < c := by
  refine LawfulOrdinate.lt_iff_le_not_ge.mpr ⟨le_trans hab (le_of_lt hbc), ?_⟩
  exact fun hca ↦ not_le_of_lt hbc (le_trans hca hab)

theorem lt_of_lt_of_le (hab : a < b) (hbc : b ≤ c) : a < c := by
  refine LawfulOrdinate.lt_iff_le_not_ge.mpr ⟨le_trans (le_of_lt hab) hbc, ?_⟩
  exact fun hca ↦ not_le_of_lt hab (le_trans hbc hca)

/-- **Between numbers nothing is left open.** -/
theorem lt_iff_not_le (ha : IsNumber a) (hb : IsNumber b) : a < b ↔ ¬b ≤ a := by
  constructor
  · exact not_le_of_lt
  · intro h
    refine LawfulOrdinate.lt_iff_le_not_ge.mpr ⟨?_, h⟩
    rcases LawfulOrdinate.le_total ha hb with hab | hba
    · exact hab
    · exact absurd hba h

/-- Among numbers one of the two comparisons holds; without numbers neither does. -/
theorem not_lt_iff_le (ha : IsNumber a) (hb : IsNumber b) : ¬a < b ↔ b ≤ a := by
  rw [lt_iff_not_le ha hb, Decidable.not_not]

/-! ### The smaller and the greater of two -/

/-- A value that is not smaller changes nothing. -/
theorem lesser_eq_right (h : b ≤ a) : lesser a b = b :=
  if_neg (not_lt_of_le h)

/-- A value that is not greater changes nothing. -/
theorem greater_eq_right (h : a ≤ b) : greater a b = b :=
  if_neg (not_lt_of_le h)

/-- **Greatest lower bound.** -/
theorem le_lesser_iff (ha : IsNumber a) (hb : IsNumber b) :
    c ≤ lesser a b ↔ c ≤ a ∧ c ≤ b := by
  rw [lesser]
  split
  next hlt =>
    exact ⟨fun h ↦ ⟨h, le_trans h (le_of_lt hlt)⟩, fun h ↦ h.1⟩
  next hlt =>
    have hba : b ≤ a := (not_lt_iff_le ha hb).mp hlt
    exact ⟨fun h ↦ ⟨le_trans h hba, h⟩, fun h ↦ h.2⟩

/-- **Least upper bound.** -/
theorem greater_le_iff (ha : IsNumber a) (hb : IsNumber b) :
    greater a b ≤ c ↔ a ≤ c ∧ b ≤ c := by
  rw [greater]
  split
  next hlt =>
    exact ⟨fun h ↦ ⟨h, le_trans (le_of_lt hlt) h⟩, fun h ↦ h.1⟩
  next hlt =>
    have hab : a ≤ b := (not_lt_iff_le hb ha).mp hlt
    exact ⟨fun h ↦ ⟨le_trans hab h, h⟩, fun h ↦ h.2⟩

theorem lesser_le_left (ha : IsNumber a) (hb : IsNumber b) : lesser a b ≤ a :=
  ((le_lesser_iff ha hb).mp (isNumber_lesser ha hb)).1

theorem le_greater_left (ha : IsNumber a) (hb : IsNumber b) : a ≤ greater a b :=
  ((greater_le_iff ha hb).mp (isNumber_greater ha hb)).1

/-! ### Two numbers in order -/

/-- Putting two numbers in order puts the smaller one first. -/
theorem inOrder_le (ha : IsNumber a) (hb : IsNumber b) : (inOrder a b).1 ≤ (inOrder a b).2 := by
  rw [inOrder]
  split
  next hlt => exact le_of_lt hlt
  next hlt => exact (not_lt_iff_le ha hb).mp hlt

section

variable (ha : IsNumber a) (hb : IsNumber b)

include ha hb

/-- The lower end of two values is below what one of them is below. -/
theorem inOrder_fst_le : (inOrder a b).1 ≤ c ↔ a ≤ c ∨ b ≤ c := by
  rw [inOrder]
  split
  next hlt => exact (or_iff_left_of_imp (le_trans (le_of_lt hlt))).symm
  next hlt =>
    have hba : b ≤ a := (not_lt_iff_le ha hb).mp hlt
    exact (or_iff_right_of_imp (le_trans hba)).symm

theorem le_inOrder_snd : c ≤ (inOrder a b).2 ↔ c ≤ a ∨ c ≤ b := by
  rw [inOrder]
  split
  next hlt => exact (or_iff_right_of_imp fun h ↦ le_trans h (le_of_lt hlt)).symm
  next hlt =>
    have hba : b ≤ a := (not_lt_iff_le ha hb).mp hlt
    exact (or_iff_left_of_imp fun h ↦ le_trans h hba).symm

theorem lt_inOrder_fst : c < (inOrder a b).1 ↔ c < a ∧ c < b := by
  rw [inOrder]
  split
  next hlt => exact (and_iff_left_of_imp fun h ↦ lt_trans h hlt).symm
  next hlt =>
    have hba : b ≤ a := (not_lt_iff_le ha hb).mp hlt
    exact (and_iff_right_of_imp fun h ↦ lt_of_lt_of_le h hba).symm

theorem inOrder_snd_lt : (inOrder a b).2 < c ↔ a < c ∧ b < c := by
  rw [inOrder]
  split
  next hlt => exact (and_iff_right_of_imp (lt_trans hlt)).symm
  next hlt =>
    have hba : b ≤ a := (not_lt_iff_le ha hb).mp hlt
    exact (and_iff_left_of_imp (lt_of_le_of_lt hba)).symm

end

/-- Two numbers that stand in order may still change places when they are equal; the first one stays
the same up to equality. -/
theorem inOrder_fst_le_iff (h : a ≤ b) : (inOrder a b).1 ≤ c ↔ a ≤ c :=
  (inOrder_fst_le (isNumber_left h) (isNumber_right h)).trans (or_iff_left_of_imp (le_trans h))

/-- A pair that is in order is sorted already. -/
theorem le_inOrder_snd_iff (h : a ≤ b) : c ≤ (inOrder a b).2 ↔ c ≤ b :=
  (le_inOrder_snd (isNumber_left h) (isNumber_right h)).trans
    (or_iff_right_of_imp fun hca ↦ le_trans hca h)

/-! ### What two spans share -/

section

variable {lo hi lo' hi' : α}

/-- Spans that do not lie apart share one from the greater lower end to the smaller upper one. -/
theorem greater_le_lesser_iff (h : lo ≤ hi) (h' : lo' ≤ hi') :
    greater lo lo' ≤ lesser hi hi' ↔ ¬hi < lo' ∧ ¬hi' < lo := by
  rw [greater_le_iff (isNumber_left h) (isNumber_left h'),
    le_lesser_iff (isNumber_right h) (isNumber_right h'),
    le_lesser_iff (isNumber_right h) (isNumber_right h'),
    not_lt_iff_le (isNumber_right h) (isNumber_left h'),
    not_lt_iff_le (isNumber_right h') (isNumber_left h)]
  constructor
  · rintro ⟨⟨-, hlo⟩, hlo', -⟩
    exact ⟨hlo', hlo⟩
  · rintro ⟨hlo', hlo⟩
    exact ⟨⟨h, hlo⟩, hlo', h'⟩

/-- The values within both spans are those within the shared one. -/
theorem within_shared_iff (h : lo ≤ hi) (h' : lo' ≤ hi') :
    greater lo lo' ≤ c ∧ c ≤ lesser hi hi' ↔ (lo ≤ c ∧ c ≤ hi) ∧ lo' ≤ c ∧ c ≤ hi' := by
  rw [greater_le_iff (isNumber_left h) (isNumber_left h'),
    le_lesser_iff (isNumber_right h) (isNumber_right h')]
  exact and_and_and_comm

end

/-! ### Zero -/

section

variable {α : Type} [Ordinate α] [GradualOrdinate α] {a : α}

theorem isNumber_zero : IsNumber (0.0 : α) :=
  isNumber_left (le_of_lt GradualOrdinate.zero_lt_infinity)

theorem beq_zero_self : ((0.0 : α) == 0.0) = true :=
  LawfulOrdinate.beq_iff_le_ge.mpr ⟨isNumber_zero, isNumber_zero⟩

/-- What is positive is no zero, of either sign. -/
theorem beq_zero_of_pos (h : 0.0 < a) : (a == 0.0) = false := by
  rw [← Bool.not_eq_true, LawfulOrdinate.beq_iff_le_ge]
  exact fun hle ↦ not_le_of_lt h hle.1

end

end Ordinate

end Geospatial
