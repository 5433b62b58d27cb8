/-!
# Numbers kept in a narrower format

`Narrow format` is a number written in an interchange format of its own: its bits and nothing else.
Narrowing rounds to the nearest number of the format, a tie going to the even significand; what lies
beyond the format's range becomes infinite, what lies below its least normal number loses digits
one by one, and what is no number stays none. Widening back to a double is exact.
-/

namespace Geospatial.Binary

open Float.Model Float.Model.UnpackedFloat

/-- Sixteen bits: ten of significand, five of exponent. -/
abbrev binary16 : Format where
  mantissaBitsWithoutImplicit := 10
  exponentBits := 5

/-- A number written in the given interchange format. -/
structure Narrow (format : Format) where
  bits : BitVec format.numBits
deriving DecidableEq

/-- Rounds to the nearest number of the format; zeros, infinities and the missing number belong to
every format. -/
def roundTo (format : Format) : UnpackedFloat → UnpackedFloat
  | .finite sign m e _ => round format sign m e
  | other => other

namespace Narrow

variable {format : Format}

/-- Writes a double in the format, rounding to nearest. -/
def ofFloat (x : Float) : Narrow format :=
  ⟨pack format (roundTo format x.toModel.unpack)⟩

/-- Reads the number back as a double. -/
def toFloat (n : Narrow format) : Float :=
  .ofModel (.pack (roundTo .binary64 (unpack format n.bits)))

end Narrow

@[simp] theorem roundTo_notANumber (format : Format) :
    roundTo format .notANumber = .notANumber := rfl

@[simp] theorem roundTo_infinity (format : Format) (sign : Sign) :
    roundTo format (.infinity sign) = .infinity sign := rfl

@[simp] theorem roundTo_zero (format : Format) (sign : Sign) :
    roundTo format (.zero sign) = .zero sign := rfl

end Geospatial.Binary
