/-!
# Doubles, taken apart and put together

A double is a sign, a mantissa below `2^53` and a power of two, or one of the
values that are no number. `Binary64.ofFloat` reads these parts off the bit
pattern, so everything this library writes about a double is a statement
about natural numbers. In the other direction `nearestDouble` rounds an exact
value to the closest double, and there is one rule for all magnitudes: the
mantissa counts units of the last place, the unit never falls below
`2^(-1074)`, and a value past the largest double becomes infinite.
-/

namespace Stepwise

/-- **The parts of a double.** A finite one is
`(-1)^negative * mantissa * 2^exponent`. -/
inductive Binary64 where
  | nan
  | infinite (negative : Bool)
  | finite (negative : Bool) (mantissa : Nat) (exponent : Int)
  deriving DecidableEq

/-- The exponent of the unit in the last place of the smallest doubles. -/
def Binary64.leastExponent : Int := -1074

/-- The weight of the sign in a bit pattern. -/
def Binary64.signWeight : Nat := Nat.pow 2 63

/-- The weight of the exponent in a bit pattern, which is also the least
mantissa of all but the smallest doubles. -/
def Binary64.exponentWeight : Nat := Nat.pow 2 52

/-- The parts that a pattern of 64 bits stands for: one bit of sign, eleven of
exponent and 52 of fraction. -/
def Binary64.ofBits (bits : Nat) : Binary64 :=
  let negative := bits / signWeight % 2 == 1
  let biased : Nat := bits / exponentWeight % 2048
  let fraction := bits % exponentWeight
  if biased = 2047 then
    if fraction = 0 then .infinite negative else .nan
  else if biased = 0 then .finite negative fraction leastExponent
  else .finite negative (exponentWeight + fraction) (biased - 1075)

/-- The parts of a double. -/
def Binary64.ofFloat (x : Float) : Binary64 :=
  .ofBits x.toBits.toNat

/-- `num / den` rounded to the nearest natural number; a half goes to the even
neighbour. -/
def roundHalfEven (num den : Nat) : Nat :=
  let quotient := num / den
  let rest := 2 * (num % den)
  if rest < den then quotient
  else if den < rest then quotient + 1
  else quotient + quotient % 2

/-- The largest `e` with `2^e ≤ num / den`, for positive `num` and `den`. -/
def floorLog2 (num den : Nat) : Int :=
  let e : Int := num.log2 - den.log2
  if num * Nat.pow 2 (-e).toNat < den * Nat.pow 2 e.toNat then e - 1 else e

/-- The bits of the double nearest to `num / den`. The unit of the last place
is `2^unit`, and since neighbouring doubles have neighbouring patterns a
mantissa that rounds up to `2^53` lands on the next pattern by itself. -/
def nearestBits (num den : Nat) : Nat :=
  if num = 0 then 0
  else
    let unit := max (floorLog2 num den - 52) Binary64.leastExponent
    let mantissa :=
      roundHalfEven (num * Nat.pow 2 (-unit).toNat) (den * Nat.pow 2 unit.toNat)
    min ((unit - Binary64.leastExponent).toNat * Binary64.exponentWeight
        + mantissa)
      (2047 * Binary64.exponentWeight)

/-- **The double nearest to an exact value**, ties to even. What is too large
becomes infinite and what is too small a zero of its sign. -/
def nearestDouble (value : Rat) : Float :=
  let sign := if value.num < 0 then Binary64.signWeight else 0
  .ofBits (.ofNat (sign + nearestBits value.num.natAbs value.den))

end Stepwise
