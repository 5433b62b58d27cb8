/-!
# Binary magnitudes on decimal grids

A positive double stands for `significand · 2^exponent`, and for the interval of reals that round to
it. Everything decimal about it is asked on a grid, the multiples of `10^k`: which grid points are
next to the value, and which of them lie in the interval. On a grid the value is a quotient of
natural numbers, so every question is settled by comparing products of naturals.
-/

namespace Geospatial.Decimal

/-- A positive binary value, `significand · 2^exponent`. -/
structure Magnitude where
  significand : Nat
  exponent : Int
  /-- The neighbour below is half as far away as the neighbour above. -/
  narrowBelow : Bool := false
deriving DecidableEq, Repr

/-- A decimal value, `digits · 10^exponent`. -/
structure Numeral where
  digits : Nat
  exponent : Int
deriving DecidableEq, Repr

namespace Magnitude

/-- The multiplier of the significand when the value is counted in steps of `10^k`. -/
def unit (x : Magnitude) (k : Int) : Nat :=
  Nat.pow 2 x.exponent.toNat * Nat.pow 10 (-k).toNat

/-- The divisor when the value is counted in steps of `10^k`. -/
def divisor (x : Magnitude) (k : Int) : Nat :=
  Nat.pow 2 (-x.exponent).toNat * Nat.pow 10 k.toNat

/-- The greatest multiple of `10^k` that is at most the value, counted in steps. -/
def stepsBelow (x : Magnitude) (k : Int) : Nat :=
  x.significand * x.unit k / x.divisor k

/-- Whether `d · 10^k` lies among the reals that round to this value. In quarters of the last
binary place the interval reaches two up and two down, or one down where the gap below is narrow;
its ends round here exactly when the significand is even. -/
def readsBack (x : Magnitude) (k : Int) (d : Nat) : Bool :=
  let low := (4 * x.significand - if x.narrowBelow then 1 else 2) * x.unit k
  let high := (4 * x.significand + 2) * x.unit k
  let point := 4 * d * x.divisor k
  if x.significand % 2 = 0 then decide (low ≤ point) && decide (point ≤ high)
  else decide (low < point) && decide (point < high)

/-- An exponent that is at least that of the leading decimal digit, and at most three more: the
binary one times the logarithm of two, rounded up. -/
def leadingBound (x : Magnitude) : Int :=
  (x.exponent + x.significand.log2 + 1) * 30103 / 100000 + 1

/-- The exponent of the leading decimal digit: that of the largest power of ten that is at most the
value. -/
def leadingExponent (x : Magnitude) : Int :=
  let candidates := (List.range 6).map fun i : Nat => x.leadingBound - i
  (candidates.find? fun k => decide (0 < x.stepsBelow k)).getD x.leadingBound

/-- The value written out in full. -/
def exactNumeral (x : Magnitude) : Numeral :=
  if x.exponent < 0 then ⟨x.significand * Nat.pow 5 (-x.exponent).toNat, x.exponent⟩
  else ⟨x.significand * Nat.pow 2 x.exponent.toNat, 0⟩

theorem unit_pos (x : Magnitude) (k : Int) : 0 < x.unit k :=
  Nat.mul_pos (Nat.pow_pos (by decide)) (Nat.pow_pos (by decide))

theorem divisor_pos (x : Magnitude) (k : Int) : 0 < x.divisor k :=
  Nat.mul_pos (Nat.pow_pos (by decide)) (Nat.pow_pos (by decide))

/-- The value is between the grid point below it and the next one. -/
theorem stepsBelow_le (x : Magnitude) (k : Int) :
    x.stepsBelow k * x.divisor k ≤ x.significand * x.unit k :=
  Nat.div_mul_le_self ..

theorem lt_stepsBelow_succ (x : Magnitude) (k : Int) :
    x.significand * x.unit k < (x.stepsBelow k + 1) * x.divisor k := by
  rw [Nat.mul_comm (x.stepsBelow k + 1)]
  exact Nat.lt_mul_div_succ _ (x.divisor_pos k)

end Magnitude

/-- The sign, kind and magnitude of a float: what its text is made from. -/
inductive Reading where
  | notANumber
  | infinite (negative : Bool)
  | zero (negative : Bool)
  | finite (negative : Bool) (magnitude : Magnitude)
deriving DecidableEq, Repr

open Float.Model Float.Model.UnpackedFloat in
/-- Reads a double. Its significand is the least one with 53 bits exactly at a power of two, and
there the gap below is half the gap above, except at the least normal number. -/
def Reading.ofFloat (x : Float) : Reading :=
  match x.toModel.unpack with
  | .notANumber => .notANumber
  | .infinity sign => .infinite (sign == .negative)
  | .zero sign => .zero (sign == .negative)
  | .finite sign m e _ =>
    .finite (sign == .negative)
      { significand := m
        exponent := e
        narrowBelow := decide (m = 0x10000000000000) && decide (Format.binary64.minExponent < e) }

end Geospatial.Decimal
