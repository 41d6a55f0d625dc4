import PlotSheet.Number.Binary

/-!
# The shortest decimal that reads back

Every finite floating-point number other than zero is the nearest one to all the reals of an
interval around it, its *rounding interval*. Its shortest decimal is the point `digits * 10 ^ scale`
of the coarsest decimal grid with a point in that interval; of two such points it is the nearer
one, and of two equally near ones the upper one.

All numbers involved are multiples of a quarter unit of the last place, so the comparisons are
exact in natural numbers.

## Main definitions

* `RoundingInterval`: a rounding interval
* `RoundingInterval.nearestOnGrid?`: its best point on one decimal grid
* `shortest`: the point on the coarsest grid that has one
-/

namespace PlotSheet.Shortest

/-- The interval of the reals that round to `value * 2 ^ exponent`, in units of
`2 ^ exponent`. -/
structure RoundingInterval where
  value : Nat
  lower : Nat
  upper : Nat
  exponent : Int
  /-- Whether the ends round to the value. -/
  closed : Bool
  deriving DecidableEq, Repr

namespace RoundingInterval

/-- The reals that round to `mantissa * 2 ^ exponent`: half a unit to either side, but a quarter
below a power of two, whose lower neighbour is nearer. Ties go to even mantissas. -/
def around (mantissa : Nat) (exponent : Int) : RoundingInterval where
  value := 4 * mantissa
  lower :=
    if mantissa = Binary.fractionSize ∧ Binary.leastExponent < exponent then 4 * mantissa - 1
    else 4 * mantissa - 2
  upper := 4 * mantissa + 2
  exponent := exponent - 2
  closed := mantissa % 2 == 0

/-- `2 ^ exponent` and `10 ^ scale` brought to a common denominator. -/
def units (i : RoundingInterval) (scale : Int) : Nat × Nat :=
  (Nat.pow 2 i.exponent.toNat * Nat.pow 10 (-scale).toNat,
    Nat.pow 10 scale.toNat * Nat.pow 2 (-i.exponent).toNat)

/-- The point `digits` of the grid of multiples of `10 ^ scale` lies in the interval. -/
def holds (i : RoundingInterval) (scale : Int) (digits : Nat) : Bool :=
  let (binary, decimal) := i.units scale
  let point := digits * decimal
  if i.closed then i.lower * binary ≤ point && point ≤ i.upper * binary
  else i.lower * binary < point && point < i.upper * binary

/-- The point of the grid of multiples of `10 ^ scale` in the interval that is nearest to its
value, the upper one of two. -/
def nearestOnGrid? (i : RoundingInterval) (scale : Int) : Option Nat :=
  let (binary, decimal) := i.units scale
  let below := i.value * binary / decimal
  match i.holds scale below, i.holds scale (below + 1) with
  | false, false => none
  | true, false => some below
  | false, true => some (below + 1)
  | true, true =>
    if 2 * (i.value * binary) < (2 * below + 1) * decimal then some below else some (below + 1)

/-- The first grid with a point in the interval, from `10 ^ scale` down by `fuel` grids. -/
def search (i : RoundingInterval) : Nat → Int → Option (Nat × Int)
  | 0, _ => none
  | fuel + 1, scale =>
    match i.nearestOnGrid? scale with
    | some digits => some (digits, scale)
    | none => i.search fuel (scale - 1)

end RoundingInterval

/-- A power of ten above `mantissa * 2 ^ exponent`; `30103 / 100000` is a little more than the
decimal logarithm of two, and the last summand makes up for its error. -/
def scaleAbove (mantissa : Nat) (exponent : Int) : Int :=
  (mantissa.log2 + 1 + exponent) * 30103 / 100000 + 2

/-- More grids than are needed: the seventeenth significant digit always tells two numbers
apart. -/
def grids : Nat := 22

/-- The shortest decimal `digits * 10 ^ scale` of `mantissa * 2 ^ exponent`, the mantissa not
zero. -/
def shortest (mantissa : Nat) (exponent : Int) : Nat × Int :=
  ((RoundingInterval.around mantissa exponent).search grids (scaleAbove mantissa exponent)).getD
    (mantissa, 0)

end PlotSheet.Shortest
