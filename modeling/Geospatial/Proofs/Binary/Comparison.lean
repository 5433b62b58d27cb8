import Geospatial.Proofs.Ordinate.Laws
import Mathlib.Data.Prod.Lex
import Mathlib.Order.Compare

/-!
# The order of doubles

Doubles obey the laws of `LawfulOrdinate`. Every double that is a number has a `rank` in a linear
order, and the comparisons of doubles are those of the ranks: `compare_eq_rank` says so of unpacked
values, one case for each pair of shapes, and the laws then come from the linear order.

**The two zeros share a rank,** so a double is not told by its rank; a value that is not a number
has none.
-/

namespace Geospatial.Binary

open Float.Model (UnpackedFloat)

/-! ### Ranks -/

/-- Where a value stands: its class from negative to positive infinity, and within a class of
nonzero numbers its exponent and mantissa, reversed on the negative side. -/
abbrev Rank : Type :=
  ℤ ×ₗ ℤ ×ₗ ℤ

/-- The rank of a value, none if it is not a number. -/
def rank : UnpackedFloat → Option Rank
  | .notANumber => none
  | .infinity .negative => some (toLex (-2, toLex (0, 0)))
  | .finite .negative m e _ => some (toLex (-1, toLex (-e, -m)))
  | .zero _ => some (toLex (0, toLex (0, 0)))
  | .finite .positive m e _ => some (toLex (1, toLex (e, m)))
  | .infinity .positive => some (toLex (2, toLex (0, 0)))

theorem compare_natCast (m n : ℕ) : compare (m : ℤ) n = compare m n := by
  rcases lt_trichotomy m n with h | h | h
  · rw [compare_lt_iff_lt.2 h, compare_lt_iff_lt.2 (by omega)]
  · simp [h]
  · rw [compare_gt_iff_gt.2 h, compare_gt_iff_gt.2 (by omega)]

/-- Negating both sides turns a comparison round. -/
theorem compare_neg_neg (m n : ℤ) : compare (-m) (-n) = (compare m n).swap := by
  rcases lt_trichotomy m n with h | h | h
  · rw [compare_lt_iff_lt.2 h, compare_gt_iff_gt.2 (by omega)]
    rfl
  · simp [h]
  · rw [compare_gt_iff_gt.2 h, compare_lt_iff_lt.2 (by omega)]
    rfl

/-- **Comparing values is comparing ranks.** -/
theorem compare_eq_rank (a b : UnpackedFloat) :
    a.compare b = (rank a).bind fun x ↦ (rank b).map fun y ↦ compare x y := by
  -- values of different classes are told apart by the class alone; only two finite values of one
  -- sign go on to compare exponents and mantissas, swapped where the sign is negative
  rcases a with s | _ | s | ⟨s, m, e, hm⟩ <;> rcases b with t | _ | t | ⟨t, n, f, hn⟩ <;>
    (try cases s) <;> (try cases t) <;> dsimp only [UnpackedFloat.compare, rank] <;>
      simp [Prod.Lex.compare_def, compareLex, compareOn, compare_natCast, compare_neg_neg,
        Ordering.swap_then] <;> rfl

/-! ### Doubles -/

/-- The rank of a double. -/
def rankOf (a : Float) : Option Rank :=
  rank a.toModel.unpack

/-- Doubles are compared by their ranks, as far as they have one. -/
theorem compare_model (a b : Float) :
    a.toModel.compare b.toModel = (rankOf a).bind fun x ↦ (rankOf b).map fun y ↦ compare x y :=
  compare_eq_rank ..

/-- **A double is at most another where both have ranks in that order.** An undefined one has none.
-/
theorem le_iff_rank {a b : Float} :
    a ≤ b ↔ ∃ x y, rankOf a = some x ∧ rankOf b = some y ∧ x ≤ y := by
  have hle : a ≤ b ↔ (a.toModel.compare b.toModel).any (·.isLE) = true := decide_eq_true_iff
  rw [hle, compare_model]
  cases rankOf a <;> cases rankOf b <;> simp [compare_le_iff_le, Ordering.isLE_iff_ne_gt]

theorem le_of_rank {a b : Float} {x y : Rank} (ha : rankOf a = some x) (hb : rankOf b = some y)
    (h : a ≤ b) : x ≤ y := by
  obtain ⟨x', y', ha', hb', hxy⟩ := le_iff_rank.mp h
  obtain rfl : x = x' := Option.some.inj (ha.symm.trans ha')
  obtain rfl : y = y' := Option.some.inj (hb.symm.trans hb')
  exact hxy

theorem lt_iff_rank {a b : Float} :
    a < b ↔ ∃ x y, rankOf a = some x ∧ rankOf b = some y ∧ x < y := by
  have hlt : a < b ↔ (a.toModel.compare b.toModel == some .lt) = true := decide_eq_true_iff
  rw [hlt, compare_model]
  cases rankOf a <;> cases rankOf b <;> simp [compare_lt_iff_lt]

theorem beq_iff_rank {a b : Float} :
    (a == b) = true ↔ ∃ x y, rankOf a = some x ∧ rankOf b = some y ∧ x = y := by
  have hbeq : (a == b) = (a.toModel.compare b.toModel == some .eq) := rfl
  rw [hbeq, compare_model]
  cases rankOf a with
  | none => simp
  | some x =>
    cases rankOf b with
    | none => simp
    | some y =>
      rw [Option.bind_some, Option.map_some, beq_iff_eq, Option.some.injEq, compare_eq_iff_eq]
      exact ⟨fun h ↦ ⟨x, y, rfl, rfl, h⟩, fun ⟨_, _, hx, hy, h⟩ ↦
        (Option.some.inj hx).trans (h.trans (Option.some.inj hy).symm)⟩

theorem isNaN_iff_rank {a : Float} : a.isNaN = true ↔ rankOf a = none := by
  show a.toModel.unpack.isNaN = true ↔ rank a.toModel.unpack = none
  rcases a.toModel.unpack with s | _ | s | ⟨s, m, e, h⟩
  case notANumber => exact ⟨fun _ ↦ rfl, fun _ ↦ rfl⟩
  all_goals
    refine ⟨fun h ↦ absurd h Bool.false_ne_true, fun h ↦ ?_⟩
    cases s <;> cases h

end Geospatial.Binary

namespace Geospatial

open Binary

/-- **Doubles obey the laws.** -/
instance : LawfulOrdinate Float where
  le_trans hab hbc := by
    obtain ⟨x, y, ha, hb, hxy⟩ := le_iff_rank.mp hab
    obtain ⟨y', z, hb', hc, hyz⟩ := le_iff_rank.mp hbc
    obtain rfl : y = y' := Option.some.inj (hb.symm.trans hb')
    exact le_iff_rank.mpr ⟨x, z, ha, hc, hxy.trans hyz⟩
  lt_iff_le_not_ge {a b} := by
    constructor
    · intro hlt
      obtain ⟨x, y, ha, hb, hxy⟩ := lt_iff_rank.mp hlt
      refine ⟨le_iff_rank.mpr ⟨x, y, ha, hb, hxy.le⟩, fun hba ↦ ?_⟩
      exact hxy.not_ge (le_of_rank hb ha hba)
    · rintro ⟨hle, hba⟩
      obtain ⟨x, y, ha, hb, -⟩ := le_iff_rank.mp hle
      refine lt_iff_rank.mpr ⟨x, y, ha, hb, lt_of_not_ge fun hyx ↦ hba ?_⟩
      exact le_iff_rank.mpr ⟨y, x, hb, ha, hyx⟩
  beq_iff_le_ge {a b} := by
    constructor
    · intro hbeq
      obtain ⟨x, y, ha, hb, rfl⟩ := beq_iff_rank.mp hbeq
      exact ⟨le_iff_rank.mpr ⟨x, x, ha, hb, le_refl x⟩, le_iff_rank.mpr ⟨x, x, hb, ha, le_refl x⟩⟩
    · rintro ⟨hab, hba⟩
      obtain ⟨x, y, ha, hb, hxy⟩ := le_iff_rank.mp hab
      exact beq_iff_rank.mpr ⟨x, y, ha, hb, hxy.antisymm (le_of_rank hb ha hba)⟩
  le_self_left h := by
    obtain ⟨x, -, ha, -, -⟩ := le_iff_rank.mp h
    exact le_iff_rank.mpr ⟨x, x, ha, ha, le_refl x⟩
  le_self_right h := by
    obtain ⟨-, y, -, hb, -⟩ := le_iff_rank.mp h
    exact le_iff_rank.mpr ⟨y, y, hb, hb, le_refl y⟩
  le_total ha hb := by
    obtain ⟨x, -, ha, -, -⟩ := le_iff_rank.mp ha
    obtain ⟨y, -, hb, -, -⟩ := le_iff_rank.mp hb
    rcases le_total x y with h | h
    · exact Or.inl (le_iff_rank.mpr ⟨x, y, ha, hb, h⟩)
    · exact Or.inr (le_iff_rank.mpr ⟨y, x, hb, ha, h⟩)

/-- A double compares with itself exactly when it is a number. -/
theorem Binary.isNumber_iff {a : Float} : Ordinate.IsNumber a ↔ a.isNaN = false := by
  have hle : Ordinate.IsNumber a ↔ a ≤ a := Iff.rfl
  rw [hle, le_iff_rank, ← Bool.not_eq_true, isNaN_iff_rank]
  cases rankOf a <;> simp

end Geospatial
