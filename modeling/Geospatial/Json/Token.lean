import Geospatial.Json.Value

/-!
# JSON tokens

The words of a JSON text, which is scanned one character at a time. What has been read of a word
that is not yet complete is the scanner's state.

**Numbers and names are gathered, then judged.** A run of the characters that can occur in a number
is taken whole and must then be one number; likewise a run of letters must be one of the three
names.

**Strings are judged as they are read,** except for their text: the escapes of a string can stand
for halves of characters, which are put together at its end.
-/

namespace Geospatial.Json

/-- A word of a JSON text. -/
inductive Token where
  | openArray
  | closeArray
  | openObject
  | closeObject
  | comma
  | colon
  | string (text : Option String)
  /-- A number or one of the three names. -/
  | scalar (value : Json)

/-! ### Numbers and names -/

/-- The natural number with the given decimal digits. -/
def natOfDigits (digits : List Char) : Nat :=
  digits.foldl (fun n c => 10 * n + (c.toNat - '0'.toNat)) 0

/-- The digits in front, of which there must be one, and what comes after them. -/
def digits? (cs : List Char) : Option (List Char × List Char) :=
  match cs.takeWhile Char.isDigit with
  | [] => none
  | digits => some (digits, cs.dropWhile Char.isDigit)

/-- The digits before the point: without a zero in front, unless it is the only one. -/
def whole? (cs : List Char) : Option (List Char × List Char) :=
  match digits? cs with
  | some ('0' :: _ :: _, _) => none
  | other => other

/-- The digits after the point, if there is one. -/
def fraction? : List Char → Option (List Char × List Char)
  | '.' :: rest => digits? rest
  | rest => some ([], rest)

/-- The sign of an exponent, if it is negative. -/
def exponentSign : List Char → Bool × List Char
  | '-' :: rest => (true, rest)
  | '+' :: rest => (false, rest)
  | rest => (false, rest)

/-- The exponent at the end, zero if there is none. -/
def exponent? : List Char → Option Int
  | [] => some 0
  | mark :: rest =>
    if mark = 'e' ∨ mark = 'E' then
      let (negative, rest) := exponentSign rest
      match digits? rest with
      | some (digits, []) =>
        let size : Int := natOfDigits digits
        some (if negative then -size else size)
      | _ => none
    else none

/-- The number that is written with the given characters. -/
def unsigned? (cs : List Char) : Option Decimal.Numeral := do
  let (whole, rest) ← whole? cs
  let (fraction, rest) ← fraction? rest
  let exponent ← exponent? rest
  return ⟨natOfDigits (whole ++ fraction), exponent - fraction.length⟩

/-- The number that is written with the given characters, perhaps with a minus sign. -/
def number? : List Char → Option Json
  | '-' :: rest => (unsigned? rest).map fun n => .number ⟨true, n⟩
  | cs => (unsigned? cs).map fun n => .number ⟨false, n⟩

/-- The value with the given name. -/
def name? (letters : List Char) : Option Json :=
  if letters = ['t', 'r', 'u', 'e'] then some (.bool true)
  else if letters = ['f', 'a', 'l', 's', 'e'] then some (.bool false)
  else if letters = ['n', 'u', 'l', 'l'] then some .null
  else none

/-! ### Strings -/

/-- The first half of a character outside the basic plane. -/
def isHighHalf (code : Nat) : Bool :=
  0xD800 ≤ code && code < 0xDC00

/-- The second half of a character outside the basic plane. -/
def isLowHalf (code : Nat) : Bool :=
  0xDC00 ≤ code && code < 0xE000

/-- The characters with the given codes, where two halves that follow each other make one. -/
def characters? : List Nat → Option (List Char)
  | [] => some []
  | [code] =>
    if isHighHalf code || isLowHalf code then none else some [Char.ofNat code]
  | code :: next :: rest =>
    if isHighHalf code && isLowHalf next then
      (characters? rest).map (Char.ofNat (0x10000 + (code - 0xD800) * 0x400 + (next - 0xDC00)) :: ·)
    else if isHighHalf code || isLowHalf code then none
    else (characters? (next :: rest)).map (Char.ofNat code :: ·)

/-- The value of a hexadecimal digit. -/
def hexDigit? (c : Char) : Option Nat :=
  if c.isDigit then some (c.toNat - '0'.toNat)
  else if 'a' ≤ c && c ≤ 'f' then some (c.toNat - 'a'.toNat + 10)
  else if 'A' ≤ c && c ≤ 'F' then some (c.toNat - 'A'.toNat + 10)
  else none

/-- The character that an escape of one letter stands for. -/
def escaped? : Char → Option Char
  | '"' => some '"'
  | '\\' => some '\\'
  | '/' => some '/'
  | 'b' => some '\x08'
  | 'f' => some '\x0c'
  | 'n' => some '\n'
  | 'r' => some '\r'
  | 't' => some '\t'
  | _ => none

/-! ### The scanner -/

/-- The word that is being read. Characters and codes stand in reverse. -/
inductive Partial where
  | none
  | name (letters : List Char)
  | number (cs : List Char)
  | string (codes : List Nat)
  /-- Within a string, after a backslash. -/
  | escape (codes : List Nat)
  /-- Within a string, after some of the four digits of a code, of which `left` more are to come. -/
  | code (codes : List Nat) (left value : Nat)

/-- The words read so far, in reverse, and the word that is being read. -/
structure Scan where
  tokens : List Token := []
  word : Partial := .none

namespace Scan

/-- Takes a complete word. -/
def push (s : Scan) (t : Token) : Scan :=
  { tokens := t :: s.tokens }

/-- Ends a name or a number, which must then be one. Other words have marks of their own at which
they end. -/
def settle (s : Scan) : Option Scan :=
  match s.word with
  | .none => some s
  | .name letters => (name? letters.reverse).map fun v => s.push (.scalar v)
  | .number cs => (number? cs.reverse).map fun v => s.push (.scalar v)
  | .string _ | .escape _ | .code .. => none

/-- Reads a character between words. -/
def begin (s : Scan) (c : Char) : Option Scan :=
  match c with
  | ' ' | '\t' | '\n' | '\r' => some s
  | '[' => some (s.push .openArray)
  | ']' => some (s.push .closeArray)
  | '{' => some (s.push .openObject)
  | '}' => some (s.push .closeObject)
  | ',' => some (s.push .comma)
  | ':' => some (s.push .colon)
  | '"' => some { s with word := .string [] }
  | c =>
    if c = '-' ∨ c.isDigit then some { s with word := .number [c] }
    else if c.isAlpha then some { s with word := .name [c] }
    else none

/-- Whether a character can go on a number. -/
def isNumberPart (c : Char) : Bool :=
  c.isDigit || c == '.' || c == 'e' || c == 'E' || c == '+' || c == '-'

/-- Reads one character. -/
def step (s : Scan) (c : Char) : Option Scan :=
  match s.word with
  | .none => s.begin c
  | .name letters =>
    if c.isAlpha then some { s with word := .name (c :: letters) }
    else s.settle.bind fun s => s.begin c
  | .number cs =>
    if isNumberPart c then some { s with word := .number (c :: cs) }
    else s.settle.bind fun s => s.begin c
  | .string codes =>
    if c = '"' then some (s.push (.string ((characters? codes.reverse).map String.ofList)))
    else if c = '\\' then some { s with word := .escape codes }
    else if c.toNat < 0x20 then none
    else some { s with word := .string (c.toNat :: codes) }
  | .escape codes =>
    if c = 'u' then some { s with word := .code codes 4 0 }
    else (escaped? c).map fun c => { s with word := .string (c.toNat :: codes) }
  | .code codes left value =>
    (hexDigit? c).map fun digit =>
      let value := 16 * value + digit
      if left ≤ 1 then { s with word := .string (value :: codes) }
      else { s with word := .code codes (left - 1) value }

end Scan

/-- The words of a text. -/
def tokens? (text : String) : Option (List Token) := do
  let s ← text.toList.foldlM Scan.step {}
  let s ← s.settle
  return s.tokens.reverse

end Geospatial.Json
