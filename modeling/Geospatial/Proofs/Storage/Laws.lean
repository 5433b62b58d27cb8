import Geospatial.Storage
import Mathlib.Data.List.Forall2

/-!
# Laws of storage

`LawfulStorage` says what is asked of a storage type: a stored number is written back as it was
read, and where there was no number there is none. Nothing is said about what rounding loses, and
of the several ways in which a format writes a missing number nothing is asked but that it stays
missing. `MonotoneStorage` asks that rounding keep the order of numbers.

So a run that is read and written back is `Storage.Alike` the run it was read from, place by place
(`alike_repack`).
-/

namespace Geospatial

/-- A storage type that keeps what it was given once. -/
class LawfulStorage (σ : Type) [Storage σ] : Prop where
  narrow_widen (t : σ) (h : (Storage.widen t).isNaN = false) : Storage.narrow (Storage.widen t) = t
  isNaN_rounded (v : Float) (h : v.isNaN = true) : (Storage.rounded σ v).isNaN = true

/-- A storage type whose rounding keeps the order of numbers, though it may make them equal. -/
class MonotoneStorage (σ : Type) [Storage σ] : Prop where
  rounded_le_rounded {v w : Float} (h : v ≤ w) : Storage.rounded σ v ≤ Storage.rounded σ w

/-- Doubles are kept as they are. -/
instance : LawfulStorage Float where
  narrow_widen _ _ := rfl
  isNaN_rounded _ h := h

instance : MonotoneStorage Float where
  rounded_le_rounded h := h

namespace Storage

variable {σ : Type} [Storage σ]

/-- The same stored number, or no number on either side. -/
def Alike (a b : σ) : Prop :=
  a = b ∨ ((widen a).isNaN = true ∧ (widen b).isNaN = true)

/-- **What is read and written back is alike.** -/
theorem alike_repack [LawfulStorage σ] (t : σ) : Alike (narrow (widen t)) t := by
  rcases hnumber : (widen t).isNaN with - | -
  · exact Or.inl (LawfulStorage.narrow_widen t hnumber)
  · exact Or.inr ⟨LawfulStorage.isNaN_rounded (widen t) hnumber, hnumber⟩

/-- Read and stored again, a run is told apart from what it was by nothing but payloads of undefined
numbers. -/
theorem forall₂_alike_repack [LawfulStorage σ] (l : List σ) :
    List.Forall₂ Alike (l.map fun t ↦ narrow (widen t)) l := by
  rw [List.forall₂_map_left_iff, List.forall₂_same]
  exact fun t _ ↦ alike_repack t

end Storage

end Geospatial
