import Geospatial.Digest
import Geospatial.Proofs.Binary.Comparison
import Geospatial.Proofs.Binary.Representation
import Geospatial.Proofs.Ordinate.Compare

/-!
# The words of numbers

A number is fed to a hash function as its bits, negative zero as those of positive zero. Numbers
have the same word exactly when they are equal (`ofFloat_eq_iff`): those that are equal are the same
unless both are zeros (`eq_or_zeros_of_beq`), since a rank leaves no more open than the sign of a
zero, and what is a number has one bit pattern.

An undefined value is fed as its bits, too, but does not equal the value that has the same ones.
-/

namespace Geospatial

open Float.Model (UnpackedFloat)

namespace Binary

theorem toBits_injective {a b : Float} (h : a.toBits = b.toBits) : a = b := by
  obtain ⟨⟨u, hu⟩⟩ := a
  obtain ⟨⟨v, hv⟩⟩ := b
  obtain rfl : u = v := h
  rfl

/-- A rank leaves open the sign of a zero and nothing else. -/
theorem eq_or_zeros_of_rank {f g : UnpackedFloat} (h : rank f = rank g) :
    f = g ∨ ∃ s t, f = .zero s ∧ g = .zero t := by
  rcases f with (_ | _) | _ | s | ⟨_ | _, m, e, hm⟩ <;>
    rcases g with (_ | _) | _ | t | ⟨_ | _, n, f, hn⟩
  -- only two finite values of one sign have their exponents and mantissas to be compared
  case finite.negative.finite.negative | finite.positive.finite.positive =>
    obtain ⟨rfl, rfl⟩ : e = f ∧ m = n := by simpa [rank] using h
    exact Or.inl rfl
  all_goals simp [rank] at h ⊢

/-- A number is told by its value. -/
theorem eq_of_unpack_eq {a b : Float} (ha : a.isNaN = false)
    (h : a.toModel.unpack = b.toModel.unpack) : a = b := by
  have hb : b.isNaN = false := (congrArg UnpackedFloat.isNaN h).symm.trans ha
  have hpack : a.toBits.toBitVec = b.toBits.toBitVec :=
    calc a.toBits.toBitVec
      _ = UnpackedFloat.pack .binary64 a.toModel.unpack := (pack_unpack (by decide) ha).symm
      _ = UnpackedFloat.pack .binary64 b.toModel.unpack := by rw [h]
      _ = b.toBits.toBitVec := pack_unpack (by decide) hb
  exact toBits_injective (UInt64.toBitVec_inj.mp hpack)

/-- What has the value of a zero is equal to it. -/
theorem beq_zero_of_unpack {a : Float} {s : UnpackedFloat.Sign}
    (h : a.toModel.unpack = .zero s) : (a == 0.0) = true := by
  rw [beq_iff_rank, rankOf, h]
  exact ⟨_, _, rfl, rfl, rfl⟩

/-- **Equal numbers are the same, unless both are zeros.** -/
theorem eq_or_zeros_of_beq {a b : Float} (h : (a == b) = true) :
    a = b ∨ (a == 0.0) = true ∧ (b == 0.0) = true := by
  obtain ⟨x, y, ha, hb, rfl⟩ := beq_iff_rank.mp h
  rcases eq_or_zeros_of_rank (ha.trans hb.symm) with hab | ⟨s, t, hs, ht⟩
  · exact Or.inl (eq_of_unpack_eq (isNumber_iff.mp (Ordinate.isNumber_of_beq h).1) hab)
  · exact Or.inr ⟨beq_zero_of_unpack hs, beq_zero_of_unpack ht⟩

end Binary

namespace Word

variable {a b : Float}

/-- Equal doubles give the same word, since zeros lose their sign in it. -/
theorem ofFloat_eq_of_beq (h : (a == b) = true) : ofFloat a = ofFloat b := by
  rcases Binary.eq_or_zeros_of_beq h with rfl | ⟨ha, hb⟩
  · rfl
  · rw [ofFloat, ofFloat, if_pos ha, if_pos hb]

/-- It is enough to know one of the values for a number. -/
theorem beq_of_ofFloat_eq (ha : Ordinate.IsNumber a) (h : ofFloat a = ofFloat b) :
    (a == b) = true := by
  have hzero : ((0.0 : Float) == 0.0) = true := by decide
  have hbits := Binary.toBits_injective (Word.long.inj h)
  split at hbits
  next haz =>
    split at hbits
    next hbz => exact Ordinate.beq_trans haz (Ordinate.beq_comm b 0.0 ▸ hbz)
    next hbz => exact absurd (hbits ▸ hzero) hbz
  next haz =>
    split at hbits
    next hbz => exact absurd (hbits ▸ hzero) haz
    next hbz => exact hbits ▸ Ordinate.beq_self ha

/-- **Numbers have the same word exactly when they are equal.** -/
theorem ofFloat_eq_iff (ha : Ordinate.IsNumber a) : ofFloat a = ofFloat b ↔ (a == b) = true :=
  ⟨beq_of_ofFloat_eq ha, ofFloat_eq_of_beq⟩

end Word

end Geospatial
