import Geospatial.Decimal.Magnitude

/-!
# The shortest numeral that reads back

`Magnitude.shortest` is the decimal with the fewest digits among those that round to the value, and
of those the nearest. Grids are tried from the coarsest to the finest, and on each only the two grid
points next to the value: if any point of a grid lies in the interval, one of these two does, since
the interval holds the value. Where both lie in it the nearer wins, and an exact tie goes up.

**Seventeen digits suffice for a double,** so the search below, which tries more, always finds; the
full expansion behind it keeps the function total.
-/

namespace Geospatial.Decimal

/-- Drops trailing zeros of the digits into the exponent. -/
def Numeral.strip (n : Numeral) : Numeral :=
  if h : n.digits ≠ 0 ∧ n.digits % 10 = 0 then
    have : n.digits / 10 < n.digits := Nat.div_lt_self (Nat.pos_of_ne_zero h.1) (by decide)
    Numeral.strip ⟨n.digits / 10, n.exponent + 1⟩
  else n
termination_by n.digits

namespace Magnitude

/-- The neighbour of the value on the grid of `10^k` that reads back, the nearer one if both do. -/
def nearestOn (x : Magnitude) (k : Int) : Option Nat :=
  let below := x.stepsBelow k
  match x.readsBack k below, x.readsBack k (below + 1) with
  | true, true =>
    if 2 * x.significand * x.unit k < (2 * below + 1) * x.divisor k then some below
    else some (below + 1)
  | true, false => some below
  | false, true => some (below + 1)
  | false, false => none

/-- The decimal exponents tried, coarsest first. -/
def grids (x : Magnitude) : List Int :=
  (List.range 24).map fun i : Nat => x.leadingBound - i

/-- The decimal with the fewest digits that rounds to the value, the nearest of those. -/
def shortest (x : Magnitude) : Numeral :=
  let found := x.grids.findSome? fun k => (x.nearestOn k).map fun d => (⟨d, k⟩ : Numeral)
  (found.getD x.exactNumeral).strip

/-- Whatever a grid yields reads back. -/
theorem readsBack_of_nearestOn {x : Magnitude} {k : Int} {d : Nat} (h : x.nearestOn k = some d) :
    x.readsBack k d = true := by
  unfold nearestOn at h
  simp only at h
  split at h <;> rename_i hb ha
  · split at h <;> cases h <;> assumption
  · cases h; exact hb
  · cases h; exact ha
  · cases h

end Magnitude

end Geospatial.Decimal
