import Mathlib.Analysis.SpecialFunctions.Trigonometric.Arctan
import Geospatial.Geodesy.LonLat
import Geospatial.Proofs.Ordinate.Laws

/-!
# Angles in exact arithmetic

Real numbers as a type of ordinates, and angles computed with them. The arithmetic is exact and the
constants of the circle are what they stand for; the functions of trigonometry are those of
`AngleFunctions`, whatever they are, so that what is proved here says which of their properties it
takes.

**The instances are scoped.** Where they are open, the comparisons and the literals of real numbers
can be read as those of ordinates; elsewhere the reals are left as they are.

**A quotient by zero is zero on the reals,** and no double. Statements that depend on a quotient
say that its divisor does not vanish.
-/

namespace Geospatial

/-- Functions of one argument that stand for those of trigonometry. -/
class AngleFunctions (α : Type) where
  sqrt : α → α
  sin : α → α
  cos : α → α
  atan : α → α
  acos : α → α

namespace ExactReals

/-- No real number is beyond every other or stands where there is none, and geometry on the sphere
asks for neither. -/
noncomputable scoped instance : Ordinate ℝ where
  decLt := inferInstance
  decLe := inferInstance
  infinity := 0
  undefined := 0
  hypotenuse u v := √(u ^ 2 + v ^ 2)

scoped instance : LawfulOrdinate ℝ where
  le_trans := le_trans
  lt_iff_le_not_ge := lt_iff_le_not_ge
  beq_iff_le_ge {_ _} := beq_iff_eq.trans le_antisymm_iff
  le_self_left _ := le_refl _
  le_self_right _ := le_refl _
  le_total _ _ := le_total _ _

noncomputable scoped instance [AngleFunctions ℝ] : Trigonometry ℝ where
  sqrt := AngleFunctions.sqrt
  sin := AngleFunctions.sin
  cos := AngleFunctions.cos
  atan := AngleFunctions.atan
  acos := AngleFunctions.acos
  pi := Real.pi
  degreesPerRadian := 180 / Real.pi

/-- The functions that bear these names, where no others are given. -/
noncomputable scoped instance : AngleFunctions ℝ where
  sqrt := Real.sqrt
  sin := Real.sin
  cos := Real.cos
  atan := Real.arctan
  acos := Real.arccos

end ExactReals

open scoped ExactReals

theorem Ordinate.real_zero : (0.0 : ℝ) = 0 := by
  norm_num

theorem Ordinate.real_one : (1.0 : ℝ) = 1 := by
  norm_num

theorem Ordinate.not_lt_zero_iff {x : ℝ} : ¬x < 0.0 ↔ 0 ≤ x := by
  rw [real_zero]
  exact not_lt

namespace Trigonometry

variable [AngleFunctions ℝ]

/-- What is clamped lies between -1 and 1. -/
theorem clampToUnit_mem (v : ℝ) : clampToUnit v ∈ Set.Icc (-1 : ℝ) 1 := by
  rw [clampToUnit, Ordinate.real_one]
  split
  next => exact ⟨le_refl _, by norm_num⟩
  next hlower =>
    split
    next => exact ⟨by norm_num, le_refl _⟩
    next hupper => exact ⟨not_lt.mp hlower, not_lt.mp hupper⟩

/-- Clamping leaves the values that a cosine can have as they are. -/
theorem clampToUnit_of_mem {v : ℝ} (h : v ∈ Set.Icc (-1 : ℝ) 1) : clampToUnit v = v := by
  rw [clampToUnit, Ordinate.real_one]
  exact (if_neg h.1.not_gt).trans (if_neg h.2.not_gt)

end Trigonometry

/-! ### The functions of the reals -/

namespace Trigonometry

@[simp] theorem sqrt_real (x : ℝ) : sqrt x = √x := rfl

@[simp] theorem sin_real (x : ℝ) : sin x = Real.sin x := rfl

@[simp] theorem cos_real (x : ℝ) : cos x = Real.cos x := rfl

@[simp] theorem atan_real (x : ℝ) : atan x = Real.arctan x := rfl

@[simp] theorem acos_real (x : ℝ) : acos x = Real.arccos x := rfl

/-- The complement is the root of what a square leaves of one. -/
theorem complement_real (v : ℝ) : complement v = √(1 - v ^ 2) := by
  rw [complement, Ordinate.real_one, Ordinate.real_zero, ← pow_two]
  split
  next => rfl
  next hnot =>
    -- nothing is left, and the root of a negative number is zero on the reals
    rw [Real.sqrt_eq_zero_of_nonpos (not_lt.mp hnot)]
    exact Real.sqrt_zero

/-- Where the cosine is not negative, the square root of one less the squared sine is the cosine. -/
theorem complement_sin {x : ℝ} (h : 0 ≤ Real.cos x) : complement (Real.sin x) = Real.cos x := by
  rw [complement_real, ← Real.cos_sq', Real.sqrt_sq h]

theorem complement_cos {x : ℝ} (h : 0 ≤ Real.sin x) : complement (Real.cos x) = Real.sin x := by
  rw [complement_real, ← Real.sin_sq, Real.sqrt_sq h]

end Trigonometry

end Geospatial
