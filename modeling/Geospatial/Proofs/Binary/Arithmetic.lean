import Geospatial.Proofs.Binary.Comparison

/-!
# Sums of doubles

A sum or a difference with a finite term is a number whenever the other term is one. It may well be
infinite: what overflows is still a number.

The two steps are that rounding never makes an undefined value (`isNaN_normalize`), and that no
other value is packed into the bits of the undefined one (`isNaN_unpack_pack`).
-/

namespace Geospatial.Binary

open Float.Model (Format UnpackedFloat)
open Float.Model.UnpackedFloat (Sign unpackExponent unpackMantissa unpackExponent_packComponents
  unpackMantissa_packComponents)

/-! ### Rounding -/

/-- A choice is a number where both of its branches are. -/
theorem isNaN_dite {c : Prop} [Decidable c] {f : c → UnpackedFloat} {g : ¬c → UnpackedFloat}
    (hf : ∀ h, (f h).isNaN = false) (hg : ∀ h, (g h).isNaN = false) :
    (dite c f g).isNaN = false := by
  by_cases h : c
  · rw [dif_pos h]
    exact hf h
  · rw [dif_neg h]
    exact hg h

/-- Rounding gives a number, an infinite one if need be. -/
theorem isNaN_round (spec : Format) (s : Sign) (m : Nat) (e : Int) :
    (UnpackedFloat.round spec s m e).isNaN = false := by
  unfold UnpackedFloat.round UnpackedFloat.roundWithAccuracy
  exact isNaN_dite (fun _ ↦ rfl) fun _ ↦ rfl

theorem isNaN_normalize (spec : Format) (m e : Int) (s : Sign) :
    (UnpackedFloat.normalize spec m e s).isNaN = false := by
  unfold UnpackedFloat.normalize
  split
  · exact isNaN_round ..
  · rfl
  · exact isNaN_round ..

/-! ### Packing -/

/-- The bits of an undefined value: all exponent bits are set, and some mantissa bit is. -/
theorem isNaN_unpack {spec : Format} (b : BitVec spec.numBits) :
    (UnpackedFloat.unpack spec b).isNaN = true ↔
      unpackExponent b = -1#_ ∧ unpackMantissa b ≠ 0#_ := by
  unfold UnpackedFloat.unpack
  dsimp only
  by_cases hexp : unpackExponent b = -1#_
  · rw [if_pos hexp]
    by_cases hman : unpackMantissa b = 0#_
    · rw [if_pos hman]
      exact iff_of_false Bool.false_ne_true fun h ↦ h.2 hman
    · rw [if_neg hman]
      exact iff_of_true rfl ⟨hexp, hman⟩
  · -- every other exponent is that of a zero or of a finite value
    rw [if_neg hexp]
    refine iff_of_false (Bool.not_eq_true _ ▸ ?_) fun h ↦ hexp h.1
    exact isNaN_dite (fun _ ↦ isNaN_dite (fun _ ↦ rfl) fun _ ↦ rfl) fun _ ↦ rfl

/-- **Only the undefined value is packed as one.** A finite value too large for the format is packed
as an infinity. -/
theorem isNaN_unpack_pack {spec : Format} {f : UnpackedFloat} (hf : f.isNaN = false) :
    (UnpackedFloat.unpack spec (UnpackedFloat.pack spec f)).isNaN = false := by
  rw [← Bool.not_eq_true, isNaN_unpack]
  fun_cases UnpackedFloat.pack with
  | case1 => cases hf
  | case2 s => simp [UnpackedFloat.packedInfinity]
  | case3 s => simp [UnpackedFloat.packedZero]
  | case4 s m e hm biasedExponent h => simp [UnpackedFloat.packedInfinity]
  | case5 s m e hm actualMantissaBits biasedExponent h₁ h₂ =>
    -- an exponent with all bits set was packed as an infinity in the case before
    have hne : BitVec.ofNat spec.exponentBits biasedExponent ≠ -1#_ := by
      intro heq
      have hnat := congrArg BitVec.toNat heq
      rw [BitVec.neg_one_eq_allOnes, BitVec.toNat_allOnes, BitVec.toNat_ofNat,
        Nat.mod_eq_of_lt (by omega)] at hnat
      omega
    simp [hne]
  | case6 s m e hm actualMantissaBits biasedExponent h₁ h₂ =>
    simp [Nat.pos_iff_ne_zero.1 spec.he]

/-! ### Sums and differences -/

/-- Adding something finite makes no number undefined; two infinities might. -/
theorem isNaN_add {a b : UnpackedFloat} (spec : Format) (ha : a.isNaN = false)
    (hb : b.isFinite = true) : (UnpackedFloat.add spec a b).isNaN = false := by
  -- only two infinities of opposite signs have an undefined sum, and `b` is none
  rcases b with t | _ | t | ⟨t, n, f, hn⟩
  case infinity | notANumber => cases hb
  all_goals rcases a with s | _ | s | ⟨s, m, e, hm⟩
  case zero.notANumber | finite.notANumber => cases ha
  case zero.zero => cases s <;> cases t <;> rfl
  case finite.finite => exact isNaN_normalize ..
  all_goals rfl

/-- Subtracting is adding the opposite. -/
theorem sub_eq_add_neg (spec : Format) (a b : UnpackedFloat) :
    UnpackedFloat.sub spec a b = UnpackedFloat.add spec a b.neg := by
  rcases a with s | _ | s | ⟨s, m, e, hm⟩ <;> rcases b with t | _ | t | ⟨t, n, f, hn⟩
  case finite.finite =>
    have hopposite : ∀ k : Int, (-t).apply k = -t.apply k := by
      intro k
      cases t
      · exact (Int.neg_neg k).symm
      · rfl
    dsimp only [UnpackedFloat.sub, UnpackedFloat.add, UnpackedFloat.neg]
    rw [hopposite, Int.sub_eq_add_neg]
  all_goals rfl

theorem isFinite_neg {a : UnpackedFloat} (ha : a.isFinite = true) : a.neg.isFinite = true := by
  cases a <;> exact ha

/-- Nor does subtracting it, which is adding the negated one. -/
theorem isNaN_sub {a b : UnpackedFloat} (spec : Format) (ha : a.isNaN = false)
    (hb : b.isFinite = true) : (UnpackedFloat.sub spec a b).isNaN = false := by
  rw [sub_eq_add_neg]
  exact isNaN_add spec ha (isFinite_neg hb)

/-- **A finite term leaves a number a number.** -/
theorem isNumber_add {a b : Float} (ha : Ordinate.IsNumber a) (hb : b.isFinite = true) :
    Ordinate.IsNumber (a + b) := by
  rw [isNumber_iff] at ha ⊢
  exact isNaN_unpack_pack (isNaN_add _ ha hb)

theorem isNumber_sub {a b : Float} (ha : Ordinate.IsNumber a) (hb : b.isFinite = true) :
    Ordinate.IsNumber (a - b) := by
  rw [isNumber_iff] at ha ⊢
  exact isNaN_unpack_pack (isNaN_sub _ ha hb)

end Geospatial.Binary
