import Reshape.Double.Basic

namespace Reshape.Double

/-- The rank nearest to the quotient of two naturals, in multiples of the least
positive number. It may lie beyond the finite ranks. -/
def nearestRank (numerator denominator : Nat) : Nat :=
  let shift := (numerator / denominator).log2 - 52
  let step := denominator * twoTo shift
  let rank := shift * twoTo 52 + numerator / step
  let excess := 2 * (numerator % step)
  if excess < step then rank
  else if step < excess then rank + 1
  else if rank % 2 = 0 then rank
  else rank + 1

/-- The number nearest to an integer, unless it lies beyond the greatest one. -/
def ofInt? (i : Int) : Option Double :=
  ofRank? (i < 0) (nearestRank (i.natAbs * unit) 1)

/-- The number nearest to `digits * 10 ^ exponent`, unless it lies beyond the
greatest one. Exponents far outside the format are settled without computing the
power. -/
def ofDecimal? (negative : Bool) (digits : Nat) (exponent : Int) : Option Double :=
  if digits = 0 then some (zero negative)
  else if 400 < exponent then none
  else if exponent + (digits.log2 / 3 + 1 : Nat) < -400 then some (zero negative)
  else
    ofRank? negative
      (nearestRank (digits * tenTo exponent.toNat * unit) (tenTo (-exponent).toNat))

end Reshape.Double
