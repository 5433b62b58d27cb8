import Geospatial.Extrema
import Geospatial.Packed.Builder

/-!
# Sessions

What a packed sequence answers depends on its ordinates; whether it still keeps its points depends
on who holds them. A session is a sequence in use: the buffer at hand, copies of it under names, and
the arrays of points and the extrema that its readers hold.

**One step, one outcome.** `step` performs one step and tells the state it leaves behind together
with the answer. A violation is the answer of its step alone: whatever the step did before is kept,
and the next step goes on from there.

**Identities are never reused.** Every array that is built takes the next identity, so an array that
nobody holds any more can never be taken for one that came later.
-/

namespace Geospatial

/-- Values under names, each name at most once. -/
abbrev Named (β : Type) := List (String × β)

namespace Named

variable {β : Type}

/-- The value under a name. -/
def find? (l : Named β) (name : String) : Option β :=
  l.lookup name

/-- Removes a name. -/
def erase (l : Named β) (name : String) : Named β :=
  l.filter fun entry => entry.1 != name

/-- Puts a value under a name, in place of what was there. -/
def insert (l : Named β) (name : String) (value : β) : Named β :=
  (name, value) :: l.erase name

theorem find?_insert_self (l : Named β) (name : String) (value : β) :
    (l.insert name value).find? name = some value := by
  simp [find?, insert]

theorem find?_erase_self (l : Named β) (name : String) : (l.erase name).find? name = none := by
  simpa [find?, erase, List.lookup_eq_none_iff] using fun _ _ _ hne => Ne.symm hne

end Named

/-- A packed sequence in use. -/
structure Session (σ : Type) where
  buffer : PackedSequence σ
  copies : Named (PackedSequence σ) := []
  held : Named PointArray := []
  scans : Named Extrema := []
  /-- Above all identities in use. -/
  nextId : Nat := 0

/-- What can be done with a packed sequence, as far as it can show in a later answer. -/
inductive SessionStep where
  /-- Reads one point, out of the kept ones if there are some. -/
  | point (i : Nat)
  /-- Reads one point anew. -/
  | pointAnew (i : Nat)
  /-- Overwrites a coordinate with the one at an index. -/
  | readInto (i : Nat) (c : Coordinate Float)
  /-- Takes the array of all points, to hold it under a name or to look at it once. -/
  | points (name : Option String)
  /-- Gives up a held array. -/
  | drop (name : String)
  /-- Whether points are kept at present. -/
  | isCached
  /-- Gives up the kept points. -/
  | release
  /-- Writes one ordinate. -/
  | setOrdinate (i k : Nat) (v : Float)
  /-- Writes to places in the run. -/
  | writeRaw (writes : List (Nat × Float))
  /-- Puts a copy under a name. -/
  | copy (name : String)
  /-- Exchanges the buffer with a copy. -/
  | swap (name : String)
  /-- Looks for the extrema and puts them under a name, which is removed if there are none. -/
  | scan (name : String)
  /-- Puts given extrema under a name. -/
  | note (name : String) (indices : Extrema)

/-- The answers to the steps. -/
inductive SessionAnswer where
  | done
  | point (c : Coordinate Float)
  /-- The points, and the names under which this very array is held already. -/
  | points (points : List (Coordinate Float)) (sameAs : List String)
  | flag (b : Bool)
  | extrema (indices : Option Extrema)

namespace Session

variable {σ : Type}

/-- A sequence that nobody has used yet. -/
def start (buffer : PackedSequence σ) : Session σ where
  buffer := buffer

/-- Whether somebody holds the array of the given identity. -/
def holds (s : Session σ) (id : Nat) : Bool :=
  s.held.any fun entry => entry.2.id == id

/-- The names under which the array of the given identity is held, in alphabetical order. -/
def namesOf (s : Session σ) (id : Nat) : List String :=
  ((s.held.filter fun entry => entry.2.id == id).map (·.1)).mergeSort (· ≤ ·)

/-- Gives up a held array. -/
def drop (s : Session σ) (name : String) : Session σ × Bool :=
  ({ s with held := s.held.erase name }, (s.held.find? name).isSome)

/-- Puts a copy of the buffer under a name. -/
def copy (s : Session σ) (name : String) : Session σ :=
  { s with copies := s.copies.insert name s.buffer.copy }

/-- Exchanges the buffer with the copy under a name, each with what it keeps. -/
def swap (s : Session σ) (name : String) : Session σ :=
  match s.copies.find? name with
  | some other => { s with buffer := other, copies := s.copies.insert name s.buffer }
  | none => s

/-- Puts extrema under a name. -/
def note (s : Session σ) (name : String) (indices : Extrema) : Session σ :=
  { s with scans := s.scans.insert name indices }

variable [Storage σ]

/-- Whether the buffer keeps points at present. -/
def isCached (s : Session σ) : Bool :=
  s.buffer.isCached s.holds

/-- Takes the array of all points, and holds it if there is a name for it. -/
def points (s : Session σ) (name : Option String) :
    Session σ × List (Coordinate Float) × List String :=
  let (array, buffer) := s.buffer.pointArray s.holds s.nextId
  let held :=
    match name with
    | some name => s.held.insert name array
    | none => s.held
  ({ s with buffer, held, nextId := s.nextId + 1 }, array.points, s.namesOf array.id)

/-- Looks for the extrema of the buffer and puts them under a name. -/
def scan (s : Session σ) (name : String) : Session σ × Except Violation (Option Extrema) :=
  match Extrema.scan <$> s.buffer.toSequence.points with
  | .ok (some indices) => (s.note name indices, .ok (some indices))
  | .ok none => ({ s with scans := s.scans.erase name }, .ok none)
  | .error v => (s, .error v)

/-- Performs one step. -/
def step (s : Session σ) : SessionStep → Session σ × Except Violation SessionAnswer
  | .point i => (s, .point <$> s.buffer.point s.holds i)
  | .pointAnew i => (s, .point <$> s.buffer.pointAnew i)
  | .readInto i c => (s, .point <$> s.buffer.readInto i c)
  | .points name =>
    let (s, points, sameAs) := s.points name
    (s, .ok (.points points sameAs))
  | .drop name =>
    let (s, wasHeld) := s.drop name
    (s, .ok (.flag wasHeld))
  | .isCached => (s, .ok (.flag s.isCached))
  | .release => ({ s with buffer := s.buffer.release }, .ok .done)
  | .setOrdinate i k v =>
    let (buffer, outcome) := s.buffer.setOrdinate i k v
    ({ s with buffer }, outcome.map fun _ => .done)
  | .writeRaw writes =>
    let (buffer, outcome) := s.buffer.writeRaw writes
    ({ s with buffer }, outcome.map fun _ => .done)
  | .copy name => (s.copy name, .ok .done)
  | .swap name => (s.swap name, .ok .done)
  | .scan name =>
    let (s, indices) := s.scan name
    (s, .extrema <$> indices)
  | .note name indices => (s.note name indices, .ok .done)

/-- Performs steps in turn, and lists their answers. -/
def run (s : Session σ) :
    List SessionStep → Session σ × List (Except Violation SessionAnswer)
  | [] => (s, [])
  | step :: rest =>
    let (s, answer) := s.step step
    let (s, answers) := s.run rest
    (s, answer :: answers)

@[simp] theorem run_nil (s : Session σ) : s.run [] = (s, []) := rfl

@[simp] theorem run_cons (s : Session σ) (step : SessionStep) (rest : List SessionStep) :
    s.run (step :: rest) =
      (((s.step step).1.run rest).1, (s.step step).2 :: ((s.step step).1.run rest).2) := rfl

/-- Every step has one answer. -/
theorem length_run (s : Session σ) (steps : List SessionStep) :
    (s.run steps).2.length = steps.length := by
  induction steps generalizing s with
  | nil => rfl
  | cons step rest ih => simp [ih]

end Session

end Geospatial
