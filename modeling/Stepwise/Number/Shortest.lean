import Stepwise.Number.Binary64

/-!
# The shortest decimal that reads back

The doubles divide the line into intervals, and any decimal inside the
interval of a double reads back as that double. `shortestDecimal` finds the
one with the fewest digits: for one digit, two digits and so on it looks at
the two neighbours of the value on the grid of decimals with that many digits,
and takes the first grid with a neighbour inside the interval. Of two hits the
nearer one is taken, and the upper one when they are equally near.
-/

namespace Stepwise

/-- A decimal: `significand * 10^exponent`. -/
structure Decimal where
  significand : Nat
  exponent : Int
  deriving DecidableEq

/-- The numbers that round to a double, as fractions over one denominator.
The ends belong to the interval when the mantissa is even, because a tie
rounds to even. -/
structure RoundingInterval where
  low : Nat
  value : Nat
  high : Nat
  den : Nat
  closed : Bool

/-- The interval of `mantissa * 2^exponent`. Its lower half is shorter at a
power of two, where the doubles below lie twice as close. -/
def RoundingInterval.ofParts (mantissa : Nat) (exponent : Int) :
    RoundingInterval :=
  let scale := Nat.pow 2 (exponent - 2).toNat
  let below :=
    if mantissa = Binary64.exponentWeight ∧ Binary64.leastExponent < exponent
    then 1 else 2
  { low := (4 * mantissa - below) * scale
    value := 4 * mantissa * scale
    high := (4 * mantissa + 2) * scale
    den := Nat.pow 2 (2 - exponent).toNat
    closed := mantissa % 2 == 0 }

/-- The largest `e` with `10^e ≤ num / den`, for positive `num` and `den`. -/
def floorLog10 (num den : Nat) : Int :=
  let e := floorLog2 num den * 30103 / 100000
  let below (k : Int) := num * Nat.pow 10 (-k).toNat < den * Nat.pow 10 k.toNat
  if below e then e - 1 else if below (e + 1) then e else e + 1

/-- The neighbour of the value on the grid of multiples of `10^unit` that lies
in the interval, if one does. -/
def RoundingInterval.onGrid? (interval : RoundingInterval) (unit : Int) :
    Option Decimal :=
  let num := interval.value * Nat.pow 10 (-unit).toNat
  let low := interval.low * Nat.pow 10 (-unit).toNat
  let high := interval.high * Nat.pow 10 (-unit).toNat
  let step := interval.den * Nat.pow 10 unit.toNat
  let floor := num / step
  let below := floor * step
  let above := below + step
  let belowFits := low < below || (interval.closed && low == below)
  let aboveFits := above < high || (interval.closed && above == high)
  if belowFits && (!aboveFits || num - below < above - num) then
    some ⟨floor, unit⟩
  else if aboveFits then some ⟨floor + 1, unit⟩
  else none

/-- **The shortest decimal that reads back** as `mantissa * 2^exponent`, which
is positive. Seventeen digits always suffice. -/
def shortestDecimal (mantissa : Nat) (exponent : Int) : Decimal :=
  let interval := RoundingInterval.ofParts mantissa exponent
  let top := floorLog10 interval.value interval.den
  ((List.range 17).findSome? fun (k : Nat) => interval.onGrid? (top - k)).getD
    ⟨0, 0⟩

end Stepwise
