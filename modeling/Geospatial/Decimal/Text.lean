import Geospatial.Decimal.Rounded
import Geospatial.Decimal.Shortest

/-!
# The text of a float

Three notations, which share the sign and the texts of what is no finite number: positional with the
fewest digits that read back, positional with a set number of places, and scientific with a set
number of significant digits.
-/

namespace Geospatial.Decimal

/-- The decimal digits of a natural number. -/
def digitsOf (n : Nat) : List Char :=
  (Nat.toDigits 10 n)

/-- Puts a point before the last `places` digits, with zeros in front where digits are missing. -/
def withPoint (digits : List Char) (places : Nat) : List Char :=
  let padded := List.replicate (places + 1 - digits.length) '0' ++ digits
  let whole := padded.take (padded.length - places)
  if places = 0 then whole else whole ++ '.' :: padded.drop (padded.length - places)

/-- A numeral in positional notation: no exponent, no point without a digit behind it. -/
def Numeral.positional (n : Numeral) : List Char :=
  if 0 ≤ n.exponent then digitsOf n.digits ++ List.replicate n.exponent.toNat '0'
  else withPoint (digitsOf n.digits) (-n.exponent).toNat

@[simp] theorem Numeral.positional_zero : (⟨0, 0⟩ : Numeral).positional = ['0'] := by
  simp [positional, digitsOf, Nat.toDigits, Nat.toDigitsCore]

/-- A sign where the number is negative, negative zero included. -/
def signed (negative : Bool) (text : List Char) : String :=
  String.ofList (if negative then '-' :: text else text)

/-- Completes a notation for positive magnitudes to one for all floats. -/
def render (zero : List Char) (magnitude : Magnitude → List Char) : Reading → String
  | .notANumber => "NaN"
  | .infinite negative => signed negative ['i', 'n', 'f']
  | .zero negative => signed negative zero
  | .finite negative x => signed negative (magnitude x)

/-- The fewest digits that identify the number, in positional notation. -/
def shortestText (x : Float) : String :=
  render ['0'] (fun m => m.shortest.positional) (.ofFloat x)

/-- The number with exactly `places` digits after the point. -/
def fixedText (places : Nat) (x : Float) : String :=
  render (withPoint ['0'] places)
    (fun m => withPoint (digitsOf (m.roundedOn (-(places : Int)))) places) (.ofFloat x)

/-- The number with exactly `count` significant digits and an exponent of ten. -/
def scientificText (count : Nat) (x : Float) : String :=
  render (withPoint ['0'] (count - 1) ++ ['e', '0'])
    (fun m =>
      let (digits, lead) := m.significant count
      withPoint (digitsOf digits) (count - 1) ++ 'e' :: (toString lead).toList)
    (.ofFloat x)

end Geospatial.Decimal
