import Mathlib.Analysis.Real.Sqrt
import Mathlib.Data.EReal.Inv
import Geospatial.Proofs.Ordinate.Laws

/-!
# Exact arithmetic

The extended real line as a type of ordinates. On reals the operations are those of the real numbers
and the diagonal over two sides is the root of the sum of their squares (`hypotenuse_coe`); nothing
is rounded and nothing overflows, so what holds of a box here is what its definitions say before any
double is involved.

**The line is extended for one value only,** the infinity that stands for the distance to a null
box. What the operations give at the two ends of the line is left as it comes, and the theorems on
exact arithmetic are about real numbers.
-/

namespace Geospatial

noncomputable instance : Ordinate EReal where
  ofScientific m s e := ((OfScientific.ofScientific m s e : ℝ) : EReal)
  decLt := inferInstance
  decLe := inferInstance
  infinity := ⊤
  undefined := ⊥
  hypotenuse u v :=
    if (u = ⊤ ∨ u = ⊥) ∨ v = ⊤ ∨ v = ⊥ then ⊤ else (√(u.toReal ^ 2 + v.toReal ^ 2) : ℝ)

/-- Exact comparisons are those of a linear order, and every value is a number. -/
instance : LawfulOrdinate EReal where
  le_trans := le_trans
  lt_iff_le_not_ge := lt_iff_le_not_ge
  beq_iff_le_ge {_ _} := beq_iff_eq.trans le_antisymm_iff
  le_self_left _ := le_refl _
  le_self_right _ := le_refl _
  le_total _ _ := le_total _ _

namespace Ordinate

theorem exact_zero : (0.0 : EReal) = 0 := by
  have h : (0.0 : ℝ) = 0 := by norm_num
  exact congrArg Real.toEReal h

theorem hypotenuse_coe (u v : ℝ) : Ordinate.hypotenuse (u : EReal) v = (√(u ^ 2 + v ^ 2) : ℝ) := by
  have hreal : ¬(((u : EReal) = ⊤ ∨ (u : EReal) = ⊥) ∨ (v : EReal) = ⊤ ∨ (v : EReal) = ⊥) := by
    simp
  exact if_neg hreal

/-- Exact differences vanish only between equal values. -/
instance : GradualOrdinate EReal where
  zero_lt_sub {_ _} h := by
    rw [exact_zero]
    exact EReal.sub_pos.mpr h
  zero_lt_hypotenuse {u v} hu hv := by
    rw [exact_zero] at hu hv ⊢
    cases u with
    | bot => exact absurd hu not_lt_bot
    | top => exact EReal.zero_lt_top.trans_eq (if_pos (Or.inl (Or.inl rfl))).symm
    | coe u =>
      cases v with
      | bot => exact absurd hv not_lt_bot
      | top => exact EReal.zero_lt_top.trans_eq (if_pos (Or.inr (Or.inl rfl))).symm
      | coe v =>
        have hpos : 0 < u := EReal.coe_pos.mp hu
        rw [hypotenuse_coe, EReal.coe_pos]
        positivity
  zero_lt_infinity := by
    rw [exact_zero]
    exact EReal.zero_lt_top

/-- Values in order stay where they are: equal ones are the same. -/
theorem inOrder_of_le {u v : EReal} (h : u ≤ v) : inOrder u v = (u, v) := by
  rw [inOrder]
  split
  next => rfl
  next hnot => rw [le_antisymm h (not_lt.mp hnot)]

end Ordinate

end Geospatial
