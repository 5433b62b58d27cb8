import Geospatial.Proofs.Ordinate.Exact
import Geospatial.Proofs.Binary.Positivity
import Geospatial.Proofs.Binary.Words

/-!
# What a double stands for

A value that is a number stands for a point of the extended real line: a mantissa and an exponent
for a dyadic rational (`dyadic`), an infinity for the end on its side. Among the values that a
format has, the order of the ranks, and so that of doubles, is the order of what they stand for
(`value_le_iff_rank_le`, `le_iff_valueOf_le`).

**One size, one exponent.** The exponent of a value in canonical form is given by the place of its
first digit, so of two of them the one with the greater exponent is greater, whatever the mantissas
(`Canonical.dyadic_lt_dyadic`).
-/

namespace Geospatial.Binary

open Float.Model (Format UnpackedFloat totalExponent)
open Float.Model.UnpackedFloat

/-! ### Mantissa and exponent -/

/-- The number that a mantissa and an exponent tell. -/
noncomputable def dyadic (m : ℕ) (e : ℤ) : ℝ :=
  m * 2 ^ e

variable {spec : Format} {m n : ℕ} {e f : ℤ}

theorem dyadic_one (e : ℤ) : dyadic 1 e = 2 ^ e := by
  rw [dyadic, Nat.cast_one, one_mul]

theorem dyadic_natCast (m : ℕ) : dyadic m 0 = m := by
  rw [dyadic, zpow_zero, mul_one]

theorem dyadic_pos (hm : 0 < m) (e : ℤ) : 0 < dyadic m e := by
  unfold dyadic
  positivity

/-- A number can be told with more digits and a smaller exponent. -/
theorem dyadic_mul_two_pow (m k : ℕ) (e : ℤ) : dyadic (m * 2 ^ k) (e - k) = dyadic m e := by
  rw [dyadic, dyadic, Nat.cast_mul, Nat.cast_pow, Nat.cast_ofNat, mul_assoc, ← zpow_natCast,
    ← zpow_add₀ two_ne_zero, add_sub_cancel]

/-- The first digit stands below the total exponent. -/
theorem dyadic_lt (m : ℕ) (e : ℤ) : dyadic m e < 2 ^ totalExponent m e := by
  have hm : (m : ℝ) < 2 ^ (m.log2 + 1) := mod_cast Nat.lt_log2_self
  rw [dyadic, totalExponent, zpow_add₀ two_ne_zero]
  have hcast : (2 : ℝ) ^ ((m.log2 : ℤ) + 1) = 2 ^ (m.log2 + 1) := mod_cast rfl
  rw [hcast]
  gcongr

/-- The leading digit is a lower bound of a size. -/
theorem le_dyadic (hm : 0 < m) (e : ℤ) : 2 ^ (totalExponent m e - 1) ≤ dyadic m e := by
  have hle : (2 : ℝ) ^ m.log2 ≤ m := mod_cast Nat.log2_self_le hm.ne'
  have hexp : totalExponent m e - 1 = m.log2 + e := by
    unfold totalExponent
    omega
  rw [dyadic, hexp, zpow_add₀ two_ne_zero, zpow_natCast]
  gcongr

/-- **A greater exponent makes a greater number,** and of equal exponents the greater mantissa
does. -/
theorem Canonical.dyadic_lt_dyadic (h : Canonical spec m e) (h' : Canonical spec n f) (hn : 0 < n)
    (hlt : e < f ∨ e = f ∧ m < n) : dyadic m e < dyadic n f := by
  rcases hlt with hlt | ⟨rfl, hlt⟩
  · -- the greater exponent is not the least one, so the total exponents are in order as well
    have htotal : totalExponent m e ≤ totalExponent n f - 1 := by
      unfold Canonical Format.targetExponent at h h'
      omega
    calc dyadic m e < 2 ^ totalExponent m e := dyadic_lt m e
      _ ≤ 2 ^ (totalExponent n f - 1) := zpow_le_zpow_right₀ one_le_two htotal
      _ ≤ dyadic n f := le_dyadic hn f
  · unfold dyadic
    gcongr

/-! ### Signs -/

/-- The point at a distance from zero, on the side of the sign. -/
noncomputable def signed : Sign → EReal → EReal
  | .positive, x => x
  | .negative, x => -x

@[simp] theorem signed_positive (x : EReal) : signed .positive x = x := rfl

@[simp] theorem signed_negative (x : EReal) : signed .negative x = -x := rfl

@[simp] theorem signed_zero (s : Sign) : signed s 0 = 0 := by
  cases s
  · exact neg_zero
  · rfl

/-- The point that a value stands for, none if it is not a number. -/
noncomputable def value : UnpackedFloat → Option EReal
  | .notANumber => none
  | .infinity s => some (signed s ⊤)
  | .zero s => some (signed s 0)
  | .finite s m e _ => some (signed s (dyadic m e))

/-- **What has a lower rank stands for less.** -/
theorem value_lt_of_rank_lt {a b : UnpackedFloat} (ha : Representable spec a)
    (hb : Representable spec b) {x y : Rank} {u v : EReal} (hx : rank a = some x)
    (hy : rank b = some y) (hu : value a = some u) (hv : value b = some v) (h : x < y) : u < v := by
  -- values of different classes are told apart by their signs and by being finite; only two finite
  -- values of one sign ask for their exponents and mantissas
  rcases a with (_ | _) | _ | s | ⟨_ | _, m, e, hm⟩ <;>
    rcases b with (_ | _) | _ | t | ⟨_ | _, n, f, hn⟩ <;>
    simp only [rank, value, Option.some.injEq, reduceCtorEq] at hx hy hu hv <;>
    subst hx hy hu hv <;> simp [Prod.Lex.toLex_lt_toLex, ← EReal.coe_neg] at h ⊢
  case zero.finite.positive => exact dyadic_pos hn f
  case finite.negative.zero => exact dyadic_pos hm e
  case finite.negative.finite.positive => linarith [dyadic_pos hm e, dyadic_pos hn f]
  case finite.positive.finite.positive => exact ha.1.dyadic_lt_dyadic hb.1 hn h
  case finite.negative.finite.negative =>
    exact hb.1.dyadic_lt_dyadic ha.1 hm (h.imp id (And.imp Eq.symm id))

/-- Doubles of one rank have one value: the two zeros are ranked alike. -/
theorem value_eq_of_rank_eq {a b : UnpackedFloat} (h : rank a = rank b) : value a = value b := by
  rcases eq_or_zeros_of_rank h with rfl | ⟨s, t, rfl, rfl⟩
  · rfl
  · rw [value, value, signed_zero, signed_zero]

/-- **The order of the ranks is that of the points.** -/
theorem value_le_iff_rank_le {a b : UnpackedFloat} (ha : Representable spec a)
    (hb : Representable spec b) {x y : Rank} {u v : EReal} (hx : rank a = some x)
    (hy : rank b = some y) (hu : value a = some u) (hv : value b = some v) : u ≤ v ↔ x ≤ y := by
  constructor
  · intro hle
    by_contra hlt
    exact (value_lt_of_rank_lt hb ha hy hx hv hu (not_le.mp hlt)).not_ge hle
  · intro hle
    rcases hle.lt_or_eq with hlt | rfl
    · exact (value_lt_of_rank_lt ha hb hx hy hu hv hlt).le
    · have hequal := value_eq_of_rank_eq (hx.trans hy.symm)
      rw [hu, hv] at hequal
      exact (Option.some.inj hequal).le

/-- What stands for a point has a rank. -/
theorem exists_rank {a : UnpackedFloat} {u : EReal} (h : value a = some u) :
    ∃ x, rank a = some x := by
  rcases a with (_ | _) | _ | s | ⟨_ | _, m, e, hm⟩
  case notANumber => cases h
  all_goals exact ⟨_, rfl⟩

/-! ### Doubles -/

/-- The point that a double stands for. -/
noncomputable def valueOf (a : Float) : Option EReal :=
  value a.toModel.unpack

/-- **The order of doubles is that of the points they stand for.** -/
theorem le_iff_valueOf_le {a b : Float} {u v : EReal} (hu : valueOf a = some u)
    (hv : valueOf b = some v) : a ≤ b ↔ u ≤ v := by
  obtain ⟨x, hx⟩ := exists_rank hu
  obtain ⟨y, hy⟩ := exists_rank hv
  rw [value_le_iff_rank_le (representable_double a) (representable_double b) hx hy hu hv]
  exact ⟨le_of_rank hx hy, fun h ↦ le_iff_rank.mpr ⟨x, y, hx, hy, h⟩⟩

end Geospatial.Binary
