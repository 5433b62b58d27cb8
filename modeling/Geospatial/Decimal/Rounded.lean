import Geospatial.Decimal.Magnitude

/-!
# Numerals of a set length

A value is written with a set number of places after the point, or with a set number of significant
digits. Both round the exact value, not one of its shorter texts, and a tie goes to the even digit.
-/

namespace Geospatial.Decimal

/-- The integer nearest to `num / den`, a tie going to the even one. -/
def roundHalfEven (num den : Nat) : Nat :=
  let quotient := num / den
  match compare (2 * (num % den)) den with
  | .lt => quotient
  | .gt => quotient + 1
  | .eq => quotient + quotient % 2

/-- The rounded quotient is within half a unit of the exact one. -/
theorem roundHalfEven_near (num den : Nat) (h : 0 < den) :
    2 * (roundHalfEven num den * den) ≤ 2 * num + den ∧
      2 * num ≤ 2 * (roundHalfEven num den * den) + den := by
  have split_num : den * (num / den) + num % den = num := Nat.div_add_mod num den
  have rest_lt : num % den < den := Nat.mod_lt _ h
  have up : (num / den + 1) * den = den * (num / den) + den := by
    rw [Nat.add_mul, Nat.mul_comm, Nat.one_mul]
  have same : num / den * den = den * (num / den) := Nat.mul_comm ..
  simp only [roundHalfEven]
  split
  · rename_i hc; rw [Nat.compare_eq_lt] at hc; omega
  · rename_i hc; rw [Nat.compare_eq_gt] at hc; omega
  · rename_i hc
    rw [Nat.compare_eq_eq] at hc
    rcases Nat.mod_two_eq_zero_or_one (num / den) with even | odd
    · rw [even, Nat.add_zero]; omega
    · rw [odd]; omega

namespace Magnitude

/-- The multiple of `10^k` nearest to the value, counted in steps. -/
def roundedOn (x : Magnitude) (k : Int) : Nat :=
  roundHalfEven (x.significand * x.unit k) (x.divisor k)

/-- The value at the given number of significant digits, with the exponent of its leading digit.
Rounding may carry into one digit more, which is then a one followed by zeros. -/
def significant (x : Magnitude) (count : Nat) : Nat × Int :=
  let lead := x.leadingExponent
  let digits := x.roundedOn (lead + 1 - (count : Int))
  if Nat.pow 10 count ≤ digits then (digits / 10, lead + 1) else (digits, lead)

end Magnitude

end Geospatial.Decimal
