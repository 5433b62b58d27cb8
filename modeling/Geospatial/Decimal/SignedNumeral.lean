import Geospatial.Decimal.Text

/-!
# Decimal numbers and floats

A decimal number with its sign, so that the two zeros stay apart. Finite floats are written as such
a number with the fewest digits, and a number is read as the float nearest to it.

**Reading never runs away.** A number whose exponent is beyond all floats is read as infinite or as
zero without its digits being written out.
-/

namespace Geospatial.Decimal

/-- A decimal number with a sign of its own. -/
structure SignedNumeral where
  negative : Bool
  numeral : Numeral
deriving DecidableEq, Repr

namespace SignedNumeral

/-- The number with the fewest digits that identifies a float, if the float is finite. -/
def ofFloat? (x : Float) : Option SignedNumeral :=
  match Reading.ofFloat x with
  | .notANumber => none
  | .infinite _ => none
  | .zero negative => some ⟨negative, ⟨0, 0⟩⟩
  | .finite negative magnitude => some ⟨negative, magnitude.shortest⟩

/-- The nearest float, infinite for a number beyond the greatest finite one. -/
def toFloat (n : SignedNumeral) : Float :=
  let magnitude : Float := .ofModel (.ofScientific n.numeral.digits n.numeral.exponent)
  if n.negative then -magnitude else magnitude

/-- The number in positional notation. -/
def text (n : SignedNumeral) : String :=
  signed n.negative n.numeral.positional

/-- A finite float and its number have the same text. -/
theorem text_of_ofFloat? {x : Float} {n : SignedNumeral} (h : ofFloat? x = some n) :
    n.text = shortestText x := by
  unfold ofFloat? at h
  unfold shortestText
  split at h <;> cases h <;> rename_i hx <;> rw [hx] <;> simp [text, render]

end SignedNumeral

end Geospatial.Decimal
