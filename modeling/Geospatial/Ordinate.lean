import Geospatial.Binary.Hypotenuse

/-!
# Ordinates

The numbers that coordinates are made of. Boxes, extrema and bearings are written over any type with
the comparisons and the arithmetic of `Ordinate`, so that one definition runs on doubles and can be
read in exact arithmetic.

**No law is assumed here.** A number may be incomparable with every other, itself included, so `a <
b` and `b ≤ a` are separate questions and each definition asks the one it means.
-/

namespace Geospatial

/-- The comparisons and the arithmetic that geometry on the plane asks of its numbers. -/
class Ordinate (α : Type) extends LT α, LE α, BEq α, Add α, Sub α, Mul α, Div α, Neg α,
    OfScientific α where
  decLt (a b : α) : Decidable (a < b)
  decLe (a b : α) : Decidable (a ≤ b)
  /-- The value beyond every other. -/
  infinity : α
  /-- The value that stands where there is no number. -/
  undefined : α
  /-- The length of the diagonal over two sides. -/
  hypotenuse : α → α → α

instance Ordinate.decidableLt {α : Type} [Ordinate α] (a b : α) : Decidable (a < b) :=
  Ordinate.decLt a b

instance Ordinate.decidableLe {α : Type} [Ordinate α] (a b : α) : Decidable (a ≤ b) :=
  Ordinate.decLe a b

instance : Ordinate Float where
  decLt := Float.decLt
  decLe := Float.decLe
  infinity := 1.0 / 0.0
  undefined := 0.0 / 0.0
  hypotenuse := Binary.floatHypotenuse

section

variable {α : Type} [Ordinate α]

/-- The first number if it is the smaller one, the second otherwise. -/
def lesser (a b : α) : α :=
  if a < b then a else b

/-- The first number if it is the greater one, the second otherwise. -/
def greater (a b : α) : α :=
  if b < a then a else b

/-- Two numbers with the smaller one first; numbers that do not compare, or are equal, change
places. -/
def inOrder (a b : α) : α × α :=
  if a < b then (a, b) else (b, a)

/-- The order of two numbers, if they compare. -/
def compare? (a b : α) : Option Ordering :=
  if a < b then some .lt
  else if a == b then some .eq
  else if b < a then some .gt
  else none

/-- The order of the first two numbers that are strictly ordered, and equality if none are. -/
def compareInTurn : List (α × α) → Ordering
  | [] => .eq
  | (a, b) :: rest => if a < b then .lt else if b < a then .gt else compareInTurn rest

end

@[simp] theorem compareInTurn_nil {α : Type} [Ordinate α] :
    compareInTurn ([] : List (α × α)) = .eq := rfl

end Geospatial
