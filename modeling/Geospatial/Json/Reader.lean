import Geospatial.Json.Token

/-!
# Reading JSON

`Json.read?` answers the value of a text that is exactly one JSON value, blanks around it aside. The
words are taken one at a time: the containers that are open stand on a stack, innermost first, and
`Expectation` tells what may come next.

**Nothing is repaired.** A comma before a closing bracket, a missing one between two values, or a
second value after the first have no reading. There is no bound on how deep values are nested.
-/

namespace Geospatial.Json

/-- A container that is still open. What it holds stands in reverse. -/
inductive Container where
  | array (items : List Json)
  | object (members : List (Option String × Json))
  /-- An object, after the name of a member. -/
  | member (members : List (Option String × Json)) (name : Option String)

/-- What may come next. -/
inductive Expectation where
  | value
  /-- A value, or the end of an empty array. -/
  | firstItem
  /-- The name of a member, or the end of an empty object. -/
  | firstName
  | name
  | colon
  /-- A comma, or the end of the innermost container. -/
  | separator
  /-- Nothing more: this is the value. -/
  | nothing (value : Json)

/-- How far the reading has come. -/
structure Reading where
  stack : List Container := []
  expected : Expectation := .value

namespace Reading

/-- Puts a complete value where it belongs. -/
def put (r : Reading) (v : Json) : Option Reading :=
  match r.stack with
  | [] => some { expected := .nothing v }
  | .array items :: rest =>
    some { stack := .array (v :: items) :: rest, expected := .separator }
  | .member members name :: rest =>
    some { stack := .object ((name, v) :: members) :: rest, expected := .separator }
  | .object _ :: _ => none

/-- Closes the innermost container. -/
def close (r : Reading) (t : Token) : Option Reading :=
  match t, r.stack with
  | .closeArray, .array items :: rest => { r with stack := rest }.put (.array items.reverse)
  | .closeObject, .object members :: rest => { r with stack := rest }.put (.object members.reverse)
  | _, _ => none

/-- Begins a value. -/
def value (r : Reading) : Token → Option Reading
  | .openArray => some { stack := .array [] :: r.stack, expected := .firstItem }
  | .openObject => some { stack := .object [] :: r.stack, expected := .firstName }
  | .string text => r.put (.string text)
  | .scalar v => r.put v
  | _ => none

/-- Reads the name of a member. -/
def name (r : Reading) : Token → Option Reading
  | .string text =>
    match r.stack with
    | .object members :: rest =>
      some { stack := .member members text :: rest, expected := .colon }
    | _ => none
  | _ => none

/-- Reads a comma, after which the innermost container goes on. -/
def next (r : Reading) : Option Reading :=
  match r.stack with
  | .array _ :: _ => some { r with expected := .value }
  | .object _ :: _ => some { r with expected := .name }
  | _ => none

/-- Reads one word. -/
def step (r : Reading) (t : Token) : Option Reading :=
  match r.expected with
  | .value => r.value t
  | .firstItem =>
    match t with
    | .closeArray => r.close t
    | t => r.value t
  | .firstName =>
    match t with
    | .closeObject => r.close t
    | t => r.name t
  | .name => r.name t
  | .colon =>
    match t with
    | .colon => some { r with expected := .value }
    | _ => none
  | .separator =>
    match t with
    | .comma => r.next
    | t => r.close t
  | .nothing _ => none

/-- The value, if the reading has come to its end. -/
def result? (r : Reading) : Option Json :=
  match r.expected with
  | .nothing v => some v
  | _ => none

end Reading

/-- The value of a text. -/
def read? (text : String) : Option Json := do
  let words ← tokens? text
  let r ← words.foldlM Reading.step {}
  r.result?

end Geospatial.Json
