import Abacus.Decimal.Binary64

/-!
# Shortest digits

The decimal digits of a double: as few as still read back as the same double, and of those the
ones nearest to it.

A double `m * 2 ^ q` is what every real number strictly between its two halfway points rounds to,
and the halfway points too if `m` is even.  On the grid of multiples of a power of ten, a point
lies in that range only if one of the value's two neighbours does.  Grids are tried from the
coarsest down; the first with a hit gives the digits.  All comparisons are between whole numbers,
on one scale.

## Main definitions

* `Range`: the reals that round to a double, on a common denominator with a grid;
* `Range.hit?`: the neighbour to take on a grid, if one lies in the range;
* `shortest`: the digits, as a whole number and a power of ten.
-/

namespace Abacus.Decimal

/-- A value and the range of reals around it, as multiples of `1 / denominator` of a grid's
step. -/
structure Range where
  low : Nat
  value : Nat
  high : Nat
  denominator : Nat
  /-- The ends belong to the range. -/
  closed : Bool

namespace Range

/-- The range of `m * 2 ^ q` on the grid of multiples of `10 ^ k`.  Values are counted in quarters
of `2 ^ q`: the double above is four away, the one below too unless the value is a power of two
with a finer scale beneath it. -/
def ofDouble (m : Nat) (q k : Int) : Range :=
  let below := if m = Binary64.leadingBit ∧ Binary64.minExponent < q then 1 else 2
  let factor := Nat.pow 10 (-k).toNat <<< (q - 2).toNat
  { low := (4 * m - below) * factor
    value := 4 * m * factor
    high := (4 * m + 2) * factor
    denominator := Nat.pow 10 k.toNat <<< (2 - q).toNat
    closed := m % 2 == 0 }

/-- The grid's point number `d` lies in the range. -/
def holds (r : Range) (d : Nat) : Bool :=
  if r.closed then r.low ≤ d * r.denominator && d * r.denominator ≤ r.high
  else r.low < d * r.denominator && d * r.denominator < r.high

/-- The point of the grid to take: the nearer of the two neighbours that lie in the range, the
upper one if they are equally near. -/
def hit? (r : Range) : Option Nat :=
  let d := r.value / r.denominator
  match r.holds d, r.holds (d + 1) with
  | true, true => some (if 2 * (r.value % r.denominator) < r.denominator then d else d + 1)
  | true, false => some d
  | false, true => some (d + 1)
  | false, false => none

end Range

/-- The first hit on the grids `10 ^ k`, `10 ^ (k - 1)`, …; the last grid tried is the one on
which the value itself lies. -/
def search (m : Nat) (q : Int) : Nat → Int → Nat × Int
  | 0, k => ((Range.ofDouble m q k).value / (Range.ofDouble m q k).denominator, k)
  | steps + 1, k =>
    match (Range.ofDouble m q k).hit? with
    | some d => (d, k)
    | none => search m q steps (k - 1)

/-- The whole part of `m * 2 ^ q`. -/
def wholePart (m : Nat) (q : Int) : Nat :=
  (m <<< q.toNat) >>> (-q).toNat

/-- **The shortest digits** of `m * 2 ^ q`: a pair `(d, k)` for `d * 10 ^ k`.  The coarsest grid
is one step wider than the whole part; the finest is `2 ^ q` itself, or one. -/
def shortest (m : Nat) (q : Int) : Nat × Int :=
  let width := (Nat.toDigits 10 (wholePart m q)).length
  search m q (width + (-q).toNat) width

end Abacus.Decimal
