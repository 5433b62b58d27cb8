import Geospatial.Packed.Sequence

/-!
# Builders

A builder takes coordinates one by one and hands the finished run over to a packed sequence.

**A coordinate is looked at before it is taken.** Its count of ordinates must be the stride and its
layout, where it is known, must be the builder's. A coordinate that does not fit leaves the builder
as it was.

**Room is only ever promised.** What has been asked for in advance is known to fit; the builder
tells nothing about room beyond that. Sizes are machine words of 64 bits. A number of ordinates that
a word cannot hold is a violation, where a build that leaves out this check would count on from
nothing; and more bytes than half the address space are never granted.
-/

namespace Geospatial

/-- A run of ordinates that grows by whole coordinates. -/
structure Builder (σ : Type) where
  options : SequenceOptions
  ordinates : Array σ
  /-- The ordinates that fit without asking for more memory. -/
  room : Nat

namespace Builder

variable {σ : Type} [Storage σ]

/-- The most bytes that a run can take. -/
def byteLimit : Nat := 0x7fffffffffffffff

/-- The ordinates of `n` coordinates, counted in a machine word. -/
def ordinateCount (options : SequenceOptions) (n : Nat) : Except Violation Nat :=
  PackedSequence.counted (n * options.layout.stride)

/-- Grants room for a number of ordinates, unless memory cannot have it. -/
def grant (σ : Type) [Storage σ] (count : Nat) : Except Violation Nat :=
  if count * Storage.bytes σ ≤ byteLimit then .ok count else .error .oversized

/-- A builder without coordinates and without room. -/
def empty (options : SequenceOptions) : Builder σ :=
  ⟨options, #[], 0⟩

/-- A builder without coordinates, with room for `n` of them. -/
def withCapacity (n : Nat) (options : SequenceOptions) : Except Violation (Builder σ) := do
  let room ← grant σ (← ordinateCount options n)
  return ⟨options, #[], room⟩

/-- A builder that holds `n` coordinates of zeros. -/
def zeros (n : Nat) (options : SequenceOptions) : Except Violation (Builder σ) := do
  let count ← grant σ (← ordinateCount options n)
  return ⟨options, Array.replicate count Storage.zero, count⟩

/-- Makes room for `n` more coordinates. -/
def reserve (b : Builder σ) (n : Nat) : Except Violation (Builder σ) := do
  let room ← grant σ (b.ordinates.size + (← ordinateCount b.options n))
  return { b with room := max b.room room }

/-- Whether `n` coordinates are known to fit. -/
def fits (b : Builder σ) (n : Nat) : Bool :=
  n ≤ max b.room b.ordinates.size / b.options.layout.stride

/-- The number of coordinates taken so far. -/
def length (b : Builder σ) : Nat :=
  b.ordinates.size / b.options.layout.stride

def isEmpty (b : Builder σ) : Bool :=
  b.length == 0

/-- Refuses a position with another count of ordinates or, where it is known, another layout. -/
def check (layout : Layout) (p : Position Float) : Except Refusal Unit :=
  if p.count ≠ layout.stride then .error (.ordinateCount layout p.count)
  else
    match p.layout? with
    | some found => if found ≠ layout then .error (.ordinateLayout layout found) else .ok ()
    | none => .ok ()

/-- Takes a position, if it fits. -/
def tryPush (b : Builder σ) (p : Position Float) : Except Failure (Builder σ) := do
  check b.options.layout p
  let taken ← ((List.range b.options.layout.stride).mapM p.ordinate : Except Violation _)
  return { b with ordinates := b.ordinates ++ (taken.map Storage.narrow).toArray }

/-- Takes a position that the caller vouches for. -/
def push (b : Builder σ) (p : Position Float) : Except Failure (Builder σ) :=
  match b.tryPush p with
  | .error (.refused refusal) => .error (.broken (.vouched refusal))
  | other => other

/-- Takes a coordinate of which no ordinate is known. -/
def pushUndefined (b : Builder σ) : Builder σ :=
  { b with
    ordinates := b.ordinates ++
      Array.replicate b.options.layout.stride (Storage.narrow Ordinate.undefined) }

/-- A builder that holds all positions, unless one does not fit; the first such is refused. -/
def ofPositions (ps : List (Position Float)) (options : SequenceOptions) :
    Except Failure (Builder σ) :=
  ps.foldlM tryPush ⟨options, #[], ps.length * options.layout.stride⟩

/-- One step of building. -/
inductive Step where
  /-- Take a position, if it fits. -/
  | tryPush (p : Position Float)
  /-- Take a position that is vouched for. -/
  | push (p : Position Float)
  /-- Take a coordinate of which no ordinate is known. -/
  | pushUndefined
  /-- Make room for more coordinates. -/
  | reserve (n : Nat)

/-- Performs one step. A step that fails leaves the builder as it was. -/
def step (b : Builder σ) (s : Step) : Builder σ × Except Failure Unit :=
  let next : Except Failure (Builder σ) :=
    match s with
    | .tryPush p => b.tryPush p
    | .push p => b.push p
    | .pushUndefined => .ok b.pushUndefined
    | .reserve n => b.reserve n
  match next with
  | .ok b => (b, .ok ())
  | .error failure => (b, .error failure)

/-- Performs steps in turn. -/
def run (b : Builder σ) (steps : List Step) : Builder σ :=
  steps.foldl (fun b s => (b.step s).1) b

/-- Hands the run over. -/
def finish (b : Builder σ) : Except Violation (PackedSequence σ) :=
  PackedSequence.ofVouched b.ordinates b.options

end Builder

namespace PackedSequence

variable {σ : Type} [Storage σ]

/-- A sequence of `n` coordinates of zeros. -/
def zeros (n : Nat) (options : SequenceOptions) : Except Violation (PackedSequence σ) := do
  let b : Builder σ ← Builder.zeros n options
  b.finish

/-- Packs positions, each of which must fit the layout. -/
def ofPositions (ps : List (Position Float)) (options : SequenceOptions) :
    Except Failure (PackedSequence σ) := do
  let b : Builder σ ← Builder.ofPositions ps options
  b.finish

end PackedSequence

end Geospatial
