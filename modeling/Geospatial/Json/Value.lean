import Geospatial.Decimal.SignedNumeral

/-!
# JSON values

The value of a JSON text, close enough to the text to tell what a reader of records has to know: the
members of an object stand in the order in which they were written, a name that occurs twice occurs
twice, and a number is the decimal that was written.

**Strings may lack a text.** An escape can stand for one half of a character outside the basic
plane. Where the other half is missing the string has no text, which matters only to whoever asks
for it.
-/

namespace Geospatial

/-- The value of a JSON text. -/
inductive Json where
  | null
  | bool (value : Bool)
  | number (value : Decimal.SignedNumeral)
  /-- A string, with its text if it has one. -/
  | string (text : Option String)
  | array (items : List Json)
  | object (members : List (Option String × Json))

namespace Json

/-- The text as a string. -/
def ofText (text : String) : Json :=
  .string (some text)

/-- A float as a number, null if it is not finite. -/
def ofFloat (x : Float) : Json :=
  match Decimal.SignedNumeral.ofFloat? x with
  | some n => .number n
  | none => .null

/-- An object with the given members. -/
def ofMembers (members : List (String × Json)) : Json :=
  .object (members.map fun member => (some member.1, member.2))

end Json

end Geospatial
