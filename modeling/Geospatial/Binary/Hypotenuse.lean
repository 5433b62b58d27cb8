/-!
# The hypotenuse of two floats

`hypotenuse u v` is the square root of `u² + v²`, rounded once. The sum of the squares is exact, so
neither a large nor a small side overflows or vanishes on the way, and the only rounding is that of
the root.

**An infinite side decides.** The hypotenuse over an infinite side is infinite whatever the other
side is, a missing number included; only then does a missing number spread to the result.
-/

namespace Geospatial.Binary

open Float.Model Float.Model.UnpackedFloat

/-- The significand that `m · 2^e` has at the exponent `low`, where `low` is at most `e`. -/
def alignTo (low : Int) (m : Nat) (e : Int) : Nat :=
  m <<< (e - low).toNat

/-- The exact sum of the squares of `m · 2^e` and `n · 2^f`, as a significand and an exponent. -/
def sumOfSquares (m : Nat) (e : Int) (n : Nat) (f : Int) : Nat × Int :=
  let low := min e f
  let a := alignTo low m e
  let b := alignTo low n f
  (a * a + b * b, 2 * low)

/-- The hypotenuse over two sides, rounded once to the nearest double. -/
def hypotenuse : UnpackedFloat → UnpackedFloat → UnpackedFloat
  | .infinity _, _ => .infinity .positive
  | _, .infinity _ => .infinity .positive
  | .notANumber, _ => .notANumber
  | _, .notANumber => .notANumber
  | .zero _, .zero _ => .zero .positive
  | .zero _, .finite _ m e h => .finite .positive m e h
  | .finite _ m e h, .zero _ => .finite .positive m e h
  | .finite _ m e _, .finite _ n f _ =>
    let (square, exponent) := sumOfSquares m e n f
    let (root, half, accuracy) := sqrtCore .binary64 square exponent
    roundWithAccuracy .binary64 .positive root half accuracy

/-- The hypotenuse as a function on floats. -/
def floatHypotenuse (u v : Float) : Float :=
  .ofModel (.pack (hypotenuse u.toModel.unpack v.toModel.unpack))

theorem alignTo_self (m : Nat) (e : Int) : alignTo e m e = m := by
  simp [alignTo]

end Geospatial.Binary
