import Geospatial.Packed.Cache
import Geospatial.Sequence
import Geospatial.Storage

/-!
# Packed sequences

The coordinates of a packed sequence stand one after the other in a single flat run of ordinates.
The run always holds whole coordinates; a run that ends within one is refused.

**Offsets are machine words.** The place of an ordinate is the coordinate's index times the stride,
plus the number of the ordinate. The layout must have the number, and a machine word of 64 bits must
hold the place; neither is taken on trust. A build that leaves out these two checks would let the
number run on into the next coordinate, and the place start over from the front of the run. Here
every one of these accesses is a violation, as is one to a place that the run does not have.

**Writing drops the kept points first.** A write past the end changes no ordinate, and still leaves
nothing kept. Only the number of the ordinate is looked at before.
-/

namespace Geospatial

/-- Coordinates in one flat run of stored ordinates. -/
structure PackedSequence (σ : Type) where
  layout : Layout
  ordinates : Array σ
  /-- The run holds whole coordinates. -/
  whole : ordinates.size % layout.stride = 0
  cache : PointCache

/-- One coordinate of a flat run, in place. -/
structure View (σ : Type) where
  layout : Layout
  run : Array σ
  index : Nat
  /-- The coordinate lies within the run. -/
  inside : (index + 1) * layout.stride ≤ run.size

namespace View

variable {σ : Type}

/-- The ordinates of the layout lie within the run. -/
theorem place_lt (v : View σ) {k : Nat} (h : k < v.layout.stride) :
    v.index * v.layout.stride + k < v.run.size := by
  have := v.inside
  rw [Nat.add_mul, Nat.one_mul] at this
  omega

variable [Storage σ]

/-- An ordinate that the layout has. -/
def get (v : View σ) (k : Nat) (h : k < v.layout.stride) : Float :=
  have := v.place_lt h
  Storage.widen v.run[v.index * v.layout.stride + k]

/-- The coordinate as a value of its own. -/
def coordinate (v : View σ) : Coordinate Float where
  x := v.get 0 v.layout.stride_pos
  y := v.get 1 v.layout.two_le_stride
  z := v.layout.zIndex.pmap v.get fun _ h => Layout.lt_stride_of_zIndex h
  m := v.layout.mIndex.pmap v.get fun _ h => Layout.lt_stride_of_mIndex h

/-- The coordinate as anything else that can be read as a place. -/
def position (v : View σ) : Position Float :=
  .inRun v.layout (v.run.map Storage.widen) v.index

/-- The copy has the ordinates that the layout tells. -/
@[simp] theorem layout_coordinate (v : View σ) : v.coordinate.layout = v.layout := by
  obtain ⟨layout, run, index, inside⟩ := v
  cases layout <;> rfl

/-- Equality on the plane. -/
instance : BEq (View σ) where
  beq a b := a.coordinate == b.coordinate

end View

namespace PackedSequence

variable {σ : Type}

/-! ### Making -/

/-- Takes over a run of stored ordinates, which must hold whole coordinates. -/
def ofStored (ordinates : Array σ) (options : SequenceOptions) :
    Except Refusal (PackedSequence σ) :=
  if h : ordinates.size % options.layout.stride = 0 then
    .ok ⟨options.layout, ordinates, h, { policy := options.cache }⟩
  else
    .error (.partialCoordinate ordinates.size options.layout)

/-- Takes over a run that the caller vouches for. -/
def ofVouched (ordinates : Array σ) (options : SequenceOptions) :
    Except Violation (PackedSequence σ) :=
  (ofStored ordinates options).mapError .vouched

/-! ### Size and options -/

def options (s : PackedSequence σ) : SequenceOptions :=
  ⟨s.layout, s.cache.policy⟩

/-- The number of coordinates. -/
def length (s : PackedSequence σ) : Nat :=
  s.ordinates.size / s.layout.stride

def isEmpty (s : PackedSequence σ) : Bool :=
  s.ordinates.isEmpty

/-- The run is as long as its coordinates take. -/
theorem length_mul_stride (s : PackedSequence σ) :
    s.length * s.layout.stride = s.ordinates.size :=
  Nat.div_mul_cancel (Nat.dvd_of_mod_eq_zero s.whole)

theorem succ_mul_stride_le (s : PackedSequence σ) {i : Nat} (h : i < s.length) :
    (i + 1) * s.layout.stride ≤ s.ordinates.size :=
  Nat.le_trans (Nat.mul_le_mul_right _ h) (Nat.div_mul_le_self ..)

/-! ### Places -/

/-- The coordinate at an index within the sequence, in place. -/
def viewAt (s : PackedSequence σ) (i : Fin s.length) : View σ :=
  ⟨s.layout, s.ordinates, i, s.succ_mul_stride_le i.isLt⟩

/-- The coordinate at any index, in place. -/
def view (s : PackedSequence σ) (i : Nat) : Except Violation (View σ) :=
  if h : i < s.length then .ok (s.viewAt ⟨i, h⟩) else .error (.noCoordinate i s.length)

/-- All coordinates, in place and in order. -/
def views (s : PackedSequence σ) : List (View σ) :=
  List.ofFn s.viewAt

/-- The number of addresses that a machine word can hold. -/
def wordCount : Nat := 0x10000000000000000

/-- A count in a machine word, which must hold all of it. -/
def counted (n : Nat) : Except Violation Nat :=
  if n < wordCount then .ok n else .error .overflow

theorem counted_eq_ok_iff {n count : Nat} : counted n = .ok count ↔ n < wordCount ∧ count = n := by
  rw [counted]
  split
  · rename_i h
    exact ⟨fun hcount ↦ ⟨h, (Except.ok.inj hcount).symm⟩, fun hcount ↦ hcount.2 ▸ rfl⟩
  · rename_i h
    exact ⟨nofun, fun hcount ↦ absurd hcount.1 h⟩

/-- The place in the run of an ordinate of a coordinate. A place that the run has is there to be
addressed; any other one is counted first. -/
def place (s : PackedSequence σ) (i k : Nat) : Except Violation Nat :=
  if i * s.layout.stride + k < s.ordinates.size then .ok (i * s.layout.stride + k)
  else counted (i * s.layout.stride + k)

@[simp] theorem length_views (s : PackedSequence σ) : s.views.length = s.length :=
  List.length_ofFn

/-- Within the sequence, every ordinate of the layout lies in the run. -/
theorem offset_lt_size (s : PackedSequence σ) {i k : Nat} (hi : i < s.length)
    (hk : k < s.layout.stride) : i * s.layout.stride + k < s.ordinates.size := by
  have h := s.succ_mul_stride_le hi
  rw [Nat.add_mul, Nat.one_mul] at h
  omega

/-- A place that the run has is where it should be. -/
theorem place_of_lt_size (s : PackedSequence σ) {i k : Nat}
    (h : i * s.layout.stride + k < s.ordinates.size) :
    s.place i k = .ok (i * s.layout.stride + k) := by
  rw [place, if_pos h]

/-- **The only place that an ordinate is ever looked for at is its own.** -/
theorem eq_of_place_eq_ok {s : PackedSequence σ} {i k p : Nat} (h : s.place i k = .ok p) :
    p = i * s.layout.stride + k := by
  rw [place] at h
  split at h
  · exact (Except.ok.inj h).symm
  · exact (counted_eq_ok_iff.mp h).2

/-! ### Releasing the cache -/

/-- Gives up the kept points. -/
def release (s : PackedSequence σ) : PackedSequence σ :=
  { s with cache := s.cache.release }

@[simp] theorem ordinates_release (s : PackedSequence σ) : s.release.ordinates = s.ordinates := rfl

@[simp] theorem layout_release (s : PackedSequence σ) : s.release.layout = s.layout := rfl

@[simp] theorem options_release (s : PackedSequence σ) : s.release.options = s.options := rfl

@[simp] theorem length_release (s : PackedSequence σ) : s.release.length = s.length := rfl

/-! ### Storing -/

variable [Storage σ]

/-- Stores a run of doubles, each rounded to the storage type. -/
def ofDoubles (values : Array Float) (options : SequenceOptions) :
    Except Refusal (PackedSequence σ) :=
  ofStored (values.map Storage.narrow) options

/-- Stores a run of numbers of 32 bits, given as the doubles that they round. -/
def ofSingles (values : Array Float) (options : SequenceOptions) :
    Except Refusal (PackedSequence σ) :=
  ofDoubles (values.map (Storage.rounded Storage.Single)) options

/-! ### Whole coordinates -/

/-- The stored ordinates, read back as doubles. -/
def values (s : PackedSequence σ) : List Float :=
  s.ordinates.toList.map Storage.widen

/-- All coordinates as values of their own. -/
def coordinates (s : PackedSequence σ) : List (Coordinate Float) :=
  s.views.map View.coordinate

@[simp] theorem length_coordinates (s : PackedSequence σ) : s.coordinates.length = s.length := by
  simp [coordinates]

/-! ### Single ordinates -/

/-- The ordinate at a place in the run. -/
def raw (s : PackedSequence σ) (place : Nat) : Except Violation Float :=
  Position.ofSlot (s.ordinates[place]?.map Storage.widen)

/-- The ordinate of the given number, of the coordinate at an index, for a caller who vouches for
the number. -/
def ordinateVouched (s : PackedSequence σ) (i k : Nat) : Except Violation Float := do
  s.raw (← s.place i k)

/-- The ordinate of the given number, of the coordinate at an index. -/
def ordinate (s : PackedSequence σ) (i k : Nat) : Except Violation Float :=
  if k < s.layout.stride then s.ordinateVouched i k else .error (.notInLayout s.layout k)

def x (s : PackedSequence σ) (i : Nat) : Except Violation Float :=
  s.ordinate i 0

def y (s : PackedSequence σ) (i : Nat) : Except Violation Float :=
  s.ordinate i 1

/-- The height at an index, none where the layout has none. -/
def z (s : PackedSequence σ) (i : Nat) : Except Violation (Option Float) :=
  s.layout.zIndex.mapM (s.ordinate i)

/-- The measure at an index, none where the layout has none. -/
def m (s : PackedSequence σ) (i : Nat) : Except Violation (Option Float) :=
  s.layout.mIndex.mapM (s.ordinate i)

/-- Overwrites a coordinate with the one at an index. Ordinates that the layout does not have stay
as they were. -/
def readInto (s : PackedSequence σ) (i : Nat) (c : Coordinate Float) :
    Except Violation (Coordinate Float) := do
  let x ← s.x i
  let y ← s.y i
  let z ← s.z i
  let m ← s.m i
  return { x, y, z := z.or c.z, m := m.or c.m }

/-! ### Writing -/

/-- Writes to a place in the run, if it exists. -/
def writeAt (s : PackedSequence σ) (place : Nat) (v : Float) :
    PackedSequence σ × Except Violation Unit :=
  if h : place < s.ordinates.size then
    ({ s with
        ordinates := s.ordinates.set place (Storage.narrow v)
        whole := by rw [Array.size_set]; exact s.whole }, .ok ())
  else (s, .error .outside)

/-- Writing to a place leaves the cache as it is; whoever writes has released it before. -/
theorem cache_writeAt (s : PackedSequence σ) (place : Nat) (v : Float) :
    (s.writeAt place v).1.cache = s.cache := by
  unfold writeAt
  split <;> rfl

theorem layout_writeAt (s : PackedSequence σ) (place : Nat) (v : Float) :
    (s.writeAt place v).1.layout = s.layout := by
  unfold writeAt
  split <;> rfl

theorem size_writeAt (s : PackedSequence σ) (place : Nat) (v : Float) :
    (s.writeAt place v).1.ordinates.size = s.ordinates.size := by
  unfold writeAt
  split <;> simp

/-- Overwrites an ordinate of a coordinate. The kept points are given up before the place is looked
for, and after the number was looked at. -/
def setOrdinate (s : PackedSequence σ) (i k : Nat) (v : Float) :
    PackedSequence σ × Except Violation Unit :=
  if k < s.layout.stride then
    match s.place i k with
    | .ok place => s.release.writeAt place v
    | .error violation => (s.release, .error violation)
  else (s, .error (.notInLayout s.layout k))

/-- Writes to places in the run, one after the other, up to the first that does not exist. -/
def writeEach (s : PackedSequence σ) :
    List (Nat × Float) → PackedSequence σ × Except Violation Unit
  | [] => (s, .ok ())
  | (place, v) :: rest =>
    match s.writeAt place v with
    | (s, .ok ()) => s.writeEach rest
    | failed => failed

/-- Opens the whole run for writing, which drops the kept points, and writes to places in it. -/
def writeRaw (s : PackedSequence σ) (writes : List (Nat × Float)) :
    PackedSequence σ × Except Violation Unit :=
  s.release.writeEach writes

/-! ### Points -/

/-- The coordinate at an index, built anew. -/
def pointAnew (s : PackedSequence σ) (i : Nat) : Except Violation (Coordinate Float) :=
  (s.view i).map View.coordinate

/-- The coordinate at an index, out of the kept points where there are some. -/
def point (s : PackedSequence σ) (held : Nat → Bool) (i : Nat) :
    Except Violation (Coordinate Float) :=
  match s.cache.current held with
  | some array => Position.ofSlot array.points[i]?
  | none => s.pointAnew i

/-- The array of all points, the kept one or a fresh one with the given identity. -/
def pointArray (s : PackedSequence σ) (held : Nat → Bool) (id : Nat) :
    PointArray × PackedSequence σ :=
  let (array, cache) := s.cache.obtain held id s.coordinates
  (array, { s with cache })

/-- Whether points are kept at present. -/
def isCached (s : PackedSequence σ) (held : Nat → Bool) : Bool :=
  (s.cache.current held).isSome

/-- A sequence of its own with the same ordinates and policy, and nothing kept. -/
def copy (s : PackedSequence σ) : PackedSequence σ :=
  s.release

/-- Sequences are equal when their layouts are and all stored ordinates are; what is kept does not
count. -/
instance : BEq (PackedSequence σ) where
  beq a b := a.layout == b.layout && a.ordinates.isEqv b.ordinates Storage.same

/-! ### As a sequence -/

/-- The packed sequence as any sequence is read. -/
def toSequence (s : PackedSequence σ) : Sequence Float where
  size := s.length
  layout := s.layout
  ordinate := s.ordinate

/-- The first two ordinates of each whole coordinate of a run. -/
def leadingPairs : Layout → List σ → List (σ × σ)
  | .xy, a :: b :: rest => (a, b) :: leadingPairs .xy rest
  | .xyz, a :: b :: _ :: rest => (a, b) :: leadingPairs .xyz rest
  | .xym, a :: b :: _ :: rest => (a, b) :: leadingPairs .xym rest
  | .xyzm, a :: b :: _ :: _ :: rest => (a, b) :: leadingPairs .xyzm rest
  | _, _ => []

/-- The places of all coordinates, reading the run from front to back. -/
def points (s : PackedSequence σ) : List (Float × Float) :=
  (leadingPairs s.layout s.ordinates.toList).map fun p =>
    (Storage.widen p.1, Storage.widen p.2)

/-- Grows an envelope to cover every coordinate. -/
def expandEnvelope (s : PackedSequence σ) (e : Envelope Float) : Envelope Float :=
  e.expandToIncludeAll s.points

/-- The layout and the coordinates, their ordinates separated by blanks. -/
def text (s : PackedSequence σ) : String :=
  let shown := s.coordinates.map fun c =>
    "(" ++ String.intercalate " " (c.ordinates.map Decimal.shortestText) ++ ")"
  "PackedCoordBuffer(" ++ s.layout.text ++ ")[" ++ String.intercalate ", " shown ++ "]"

end PackedSequence

end Geospatial
