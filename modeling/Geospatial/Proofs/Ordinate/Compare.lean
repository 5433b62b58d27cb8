import Geospatial.Proofs.Ordinate.Laws
import Mathlib.Order.Compare

/-!
# What comparing two values tells

`Compared` lists the four outcomes of a comparison beside what each of them says. No two of them can
be said of the same values (`Compared.compare?_eq`), so each outcome of `compare?` can be read as a
fact and each fact as an outcome.

**Values that do not compare count as equal where boxes are ordered.** That keeps the comparison
total, and turning the two values round still turns the answer round; but an undefined value ties
with every other one, so only on numbers are the answers those of an order.
-/

namespace Geospatial.Ordinate

section

variable {α : Type} [Ordinate α] [LawfulOrdinate α] {a b c : α} {o o' : Option Ordering}

/-! ### Equality -/

theorem beq_self (ha : IsNumber a) : (a == a) = true :=
  LawfulOrdinate.beq_iff_le_ge.mpr ⟨ha, ha⟩

theorem isNumber_of_beq (h : (a == b) = true) : IsNumber a ∧ IsNumber b := by
  obtain ⟨hab, -⟩ := LawfulOrdinate.beq_iff_le_ge.mp h
  exact ⟨isNumber_left hab, isNumber_right hab⟩

theorem beq_comm (a b : α) : (a == b) = (b == a) := by
  rw [Bool.eq_iff_iff, LawfulOrdinate.beq_iff_le_ge, LawfulOrdinate.beq_iff_le_ge, and_comm]

theorem beq_trans (hab : (a == b) = true) (hbc : (b == c) = true) : (a == c) = true := by
  rw [LawfulOrdinate.beq_iff_le_ge] at *
  exact ⟨le_trans hab.1 hbc.1, le_trans hbc.2 hab.2⟩

/-- Equal values can be put for each other in a strict comparison. -/
theorem lt_of_lt_of_beq (hab : a < b) (hbc : (b == c) = true) : a < c :=
  lt_of_lt_of_le hab (LawfulOrdinate.beq_iff_le_ge.mp hbc).1

theorem lt_of_beq_of_lt (hab : (a == b) = true) (hbc : b < c) : a < c :=
  lt_of_le_of_lt (LawfulOrdinate.beq_iff_le_ge.mp hab).1 hbc

theorem not_lt_of_beq (h : (a == b) = true) : ¬a < b :=
  not_lt_of_le (LawfulOrdinate.beq_iff_le_ge.mp h).2

/-! ### The outcomes of a comparison -/

/-- An outcome of a comparison and what it says of the two values. -/
inductive Compared (a b : α) : Option Ordering → Prop
  | lt (h : a < b) : Compared a b (some .lt)
  | eq (h : (a == b) = true) : Compared a b (some .eq)
  | gt (h : b < a) : Compared a b (some .gt)
  | apart (h : ¬(IsNumber a ∧ IsNumber b)) : Compared a b none

theorem Compared.isNumber {r : Ordering} (h : Compared a b (some r)) : IsNumber a ∧ IsNumber b := by
  cases h with
  | lt h => exact ⟨isNumber_left (le_of_lt h), isNumber_right (le_of_lt h)⟩
  | eq h => exact isNumber_of_beq h
  | gt h => exact ⟨isNumber_right (le_of_lt h), isNumber_left (le_of_lt h)⟩

/-- **A comparison tells what its outcome says.** -/
theorem compared (a b : α) : Compared a b (compare? a b) := by
  rw [compare?]
  split
  next hlt => exact .lt hlt
  next hlt =>
    split
    next hbeq => exact .eq hbeq
    next hbeq =>
      split
      next hgt => exact .gt hgt
      next hgt =>
        -- numbers that are in neither order would be equal
        refine .apart fun ⟨ha, hb⟩ ↦ hbeq (LawfulOrdinate.beq_iff_le_ge.mpr ?_)
        exact ⟨(not_lt_iff_le hb ha).mp hgt, (not_lt_iff_le ha hb).mp hlt⟩

theorem Compared.swap (h : Compared a b o) : Compared b a (o.map .swap) := by
  cases h with
  | lt h => exact .gt h
  | eq h => exact .eq (beq_comm a b ▸ h)
  | gt h => exact .lt h
  | apart h => exact .apart fun hba ↦ h hba.symm

/-- No other outcome says the same. -/
theorem Compared.compare?_eq (h : Compared a b o) : compare? a b = o := by
  cases h with
  | lt h => exact if_pos h
  | eq h => rw [compare?, if_neg (not_lt_of_beq h), if_pos h]
  | gt h =>
    have hbeq : ¬(a == b) = true := fun hbeq ↦ not_lt_of_beq (beq_comm a b ▸ hbeq) h
    rw [compare?, if_neg (not_lt_of_le (le_of_lt h)), if_neg hbeq, if_pos h]
  | apart h =>
    -- each of the others says that both values are numbers
    have hcompared := compared a b
    cases hr : compare? a b with
    | none => rfl
    | some r =>
      rw [hr] at hcompared
      exact absurd hcompared.isNumber h

/-- The comparison as it is computed is the relation above. -/
theorem compare?_eq_iff : compare? a b = o ↔ Compared a b o :=
  ⟨fun h ↦ h ▸ compared a b, Compared.compare?_eq⟩

theorem compare?_eq_lt_iff : compare? a b = some .lt ↔ a < b := by
  rw [compare?_eq_iff]
  exact ⟨fun | .lt h => h, .lt⟩

theorem compare?_eq_eq_iff : compare? a b = some .eq ↔ (a == b) = true := by
  rw [compare?_eq_iff]
  exact ⟨fun | .eq h => h, .eq⟩

/-- Only without numbers is there no comparison. -/
theorem compare?_eq_none_iff : compare? a b = none ↔ ¬(IsNumber a ∧ IsNumber b) := by
  rw [compare?_eq_iff]
  exact ⟨fun | .apart h => h, .apart⟩

/-- Turning the values round turns the answer round. -/
theorem compare?_swap (a b : α) : compare? b a = (compare? a b).map .swap :=
  (compared a b).swap.compare?_eq

end

/-! ### Ties -/

section

variable {α : Type} [Ordinate α] {a b : α}

/-- The order of two values, equal if they are in neither. -/
def compareOrTie (a b : α) : Ordering :=
  if a < b then .lt else if b < a then .gt else .eq

/-- Each pair decides unless it ties. -/
theorem compareInTurn_cons (a b : α) (rest : List (α × α)) :
    compareInTurn ((a, b) :: rest) = (compareOrTie a b).then (compareInTurn rest) := by
  rw [compareInTurn, compareOrTie]
  split
  · rfl
  · split
    · rfl
    · rfl

/-- Comparing pair by pair is the lexicographic order of what is compared. -/
theorem compareInTurn_zip {as bs : List α} (h : as.length = bs.length) :
    compareInTurn (as.zip bs) = List.compareLex compareOrTie as bs := by
  induction as generalizing bs with
  | nil =>
    obtain rfl := List.length_eq_zero_iff.mp h.symm
    rfl
  | cons a as ih =>
    obtain ⟨b, bs, rfl⟩ := List.exists_cons_of_length_eq_add_one h.symm
    rw [List.zip_cons_cons, compareInTurn_cons, List.compareLex_cons_cons,
      ih (Nat.succ.inj h)]

/-- Values tie where neither is less, a missing number with everything. -/
theorem compareOrTie_eq_eq_iff : compareOrTie a b = .eq ↔ ¬a < b ∧ ¬b < a := by
  rw [compareOrTie]
  split
  next h => exact iff_of_false nofun fun hnot ↦ hnot.1 h
  next h =>
    split
    next h' => exact iff_of_false nofun fun hnot ↦ hnot.2 h'
    next h' => exact iff_of_true rfl ⟨h, h'⟩

variable [LawfulOrdinate α]

/-- A value is not ordered after another exactly where that one is not less. -/
theorem isLE_compareOrTie : (compareOrTie a b).isLE = true ↔ ¬b < a := by
  rw [compareOrTie]
  split
  next h => exact iff_of_true rfl (not_lt_of_le (le_of_lt h))
  next =>
    split
    next h' => exact iff_of_false nofun (not_not.mpr h')
    next h' => exact iff_of_true rfl h'

theorem compareOrTie_swap (a b : α) : compareOrTie a b = (compareOrTie b a).swap := by
  rw [compareOrTie, compareOrTie]
  by_cases hab : a < b
  · rw [if_pos hab, if_neg (not_lt_of_le (le_of_lt hab)), if_pos hab]
    rfl
  · rw [if_neg hab, if_neg hab]
    split
    · rfl
    · rfl

/-- Undefined values tie with every other one; the answer is turned round all the same. -/
instance : Std.OrientedCmp (compareOrTie (α := α)) where
  eq_swap := compareOrTie_swap ..

/-- Among numbers only equal ones tie. -/
theorem compareOrTie_eq_eq_iff_beq (ha : IsNumber a) (hb : IsNumber b) :
    compareOrTie a b = .eq ↔ (a == b) = true := by
  rw [compareOrTie_eq_eq_iff, not_lt_iff_le ha hb, not_lt_iff_le hb ha, and_comm,
    LawfulOrdinate.beq_iff_le_ge]

/-- **Numbers tie only with equal ones,** so on them the answers are those of an order. -/
instance : Std.TransCmp fun a b : {v : α // IsNumber v} ↦ compareOrTie a.1 b.1 where
  eq_swap := compareOrTie_swap ..
  isLE_trans {a b c} hab hbc := by
    rw [isLE_compareOrTie, not_lt_iff_le b.2 a.2] at hab
    rw [isLE_compareOrTie, not_lt_iff_le c.2 b.2] at hbc
    exact isLE_compareOrTie.mpr (not_lt_of_le (le_trans hab hbc))

end

end Geospatial.Ordinate
