import Geospatial.Coordinate
import Geospatial.Proofs.Ordinate.Compare

/-!
# Coordinates on the plane

Two coordinates compare by x, and by y where their x are equal. The outcomes are those of comparing
numbers, carried over to the plane: the order ties where the coordinates are equal
(`comparePlane?_eq_eq_iff`), turns round with them (`comparePlane?_swap`) and is transitive
(`precedes_trans`).

A coordinate with an undefined x or y may still come before another one, namely when x decides. But
it is never equal to any, not even to itself (`beq_self_iff`).
-/

namespace Geospatial.Coordinate

open Ordinate

variable {α : Type} [Ordinate α] {a b c : Coordinate α}

/-- Both ordinates of the plane are numbers. -/
def Numeric (a : Coordinate α) : Prop :=
  IsNumber a.x ∧ IsNumber a.y

instance (a : Coordinate α) : Decidable a.Numeric :=
  inferInstanceAs (Decidable (_ ∧ _))

/-! ### Equality -/

theorem beq_iff : (a == b) = true ↔ (a.x == b.x) = true ∧ (a.y == b.y) = true :=
  Bool.and_eq_true _ _ ▸ Iff.rfl

variable [LawfulOrdinate α]

theorem beq_comm (a b : Coordinate α) : (a == b) = (b == a) := by
  rw [Bool.eq_iff_iff, beq_iff, beq_iff, Ordinate.beq_comm a.x, Ordinate.beq_comm a.y]

theorem beq_trans (hab : (a == b) = true) (hbc : (b == c) = true) : (a == c) = true := by
  rw [beq_iff] at *
  exact ⟨Ordinate.beq_trans hab.1 hbc.1, Ordinate.beq_trans hab.2 hbc.2⟩

/-- Only coordinates of numbers are equal to themselves. -/
theorem beq_self_iff : (a == a) = true ↔ a.Numeric := by
  rw [beq_iff]
  exact ⟨fun h ↦ ⟨(isNumber_of_beq h.1).1, (isNumber_of_beq h.2).1⟩,
    fun h ↦ ⟨beq_self h.1, beq_self h.2⟩⟩

/-- What equals something equals itself. -/
theorem beq_self_of_beq (h : (a == b) = true) : (b == b) = true :=
  beq_trans (beq_comm a b ▸ h) h

/-! ### Order -/

/-- The comparison and the equality are coherent. -/
theorem comparePlane?_eq_eq_iff : a.comparePlane? b = some .eq ↔ (a == b) = true := by
  rw [comparePlane?, beq_iff]
  split
  next hx => rw [compare?_eq_eq_iff, and_iff_right (compare?_eq_eq_iff.mp hx)]
  next hx => exact iff_of_false hx fun h ↦ hx (compare?_eq_eq_iff.mpr h.1)

theorem comparePlane?_swap (a b : Coordinate α) :
    b.comparePlane? a = (a.comparePlane? b).map .swap := by
  rw [comparePlane?, comparePlane?, compare?_swap a.x b.x]
  rcases compare? a.x b.x with _ | _ | _ | _
  case some.eq => exact compare?_swap a.y b.y
  all_goals rfl

/-- Only an undefined value keeps two coordinates from comparing. -/
theorem not_numeric_of_comparePlane?_eq_none (h : a.comparePlane? b = none) :
    ¬(a.Numeric ∧ b.Numeric) := by
  rintro ⟨ha, hb⟩
  rw [comparePlane?] at h
  split at h
  · exact compare?_eq_none_iff.mp h ⟨ha.2, hb.2⟩
  · exact compare?_eq_none_iff.mp h ⟨ha.1, hb.1⟩

/-- One coordinate precedes another by x, and by y where these are equal. -/
theorem precedes_iff :
    a.precedes b = true ↔ a.x < b.x ∨ (a.x == b.x) = true ∧ a.y < b.y := by
  rw [precedes, beq_iff_eq, comparePlane?]
  split
  next hx =>
    have hbeq := compare?_eq_eq_iff.mp hx
    rw [compare?_eq_lt_iff, or_iff_right (not_lt_of_beq hbeq), and_iff_right hbeq]
  next hx =>
    rw [compare?_eq_lt_iff, or_iff_left fun h ↦ hx (compare?_eq_eq_iff.mpr h.1)]

theorem precedes_trans (hab : a.precedes b = true) (hbc : b.precedes c = true) :
    a.precedes c = true := by
  rw [precedes_iff] at *
  rcases hab with hab | ⟨habx, haby⟩
  · rcases hbc with hbc | ⟨hbcx, -⟩
    · exact Or.inl (lt_trans hab hbc)
    · exact Or.inl (lt_of_lt_of_beq hab hbcx)
  · rcases hbc with hbc | ⟨hbcx, hbcy⟩
    · exact Or.inl (lt_of_beq_of_lt habx hbc)
    · exact Or.inr ⟨Ordinate.beq_trans habx hbcx, lt_trans haby hbcy⟩

end Geospatial.Coordinate
