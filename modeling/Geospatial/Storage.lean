import Geospatial.Binary.Narrow

/-!
# Storage

Ordinates enter and leave a sequence as doubles, and may be kept in fewer bits. A storage type says
how a double is rounded on the way in and how it is read back; what rounding loses is accepted and
not reported.
-/

namespace Geospatial

/-- A type that ordinates can be kept in. -/
class Storage (σ : Type) where
  narrow : Float → σ
  widen : σ → Float
  /-- The bytes that one ordinate takes. -/
  bytes : Nat

/-- Doubles are kept as they are. -/
instance : Storage Float where
  narrow v := v
  widen v := v
  bytes := 8

/-- Numbers of a narrower format are rounded to nearest. -/
instance (format : Float.Model.Format) : Storage (Binary.Narrow format) where
  narrow := .ofFloat
  widen n := n.toFloat
  bytes := format.numBits / 8

namespace Storage

/-- Ordinates of 32 bits. -/
abbrev Single := Binary.Narrow .binary32

/-- Ordinates of 16 bits. -/
abbrev Half := Binary.Narrow Binary.binary16

variable {σ : Type} [Storage σ]

/-- What a slot holds before anything is written to it. -/
def zero : σ :=
  narrow 0.0

/-- Equality of stored numbers, which is that of the doubles they stand for. -/
def same (a b : σ) : Bool :=
  widen a == widen b

/-- What is left of a double after it has been stored. -/
def rounded (σ : Type) [Storage σ] (v : Float) : Float :=
  widen (narrow v : σ)

@[simp] theorem rounded_double (v : Float) : rounded Float v = v := rfl

end Storage

end Geospatial
