import Reshape.Decimal
import Reshape.Double.Basic

namespace Reshape

/-- The value `digits * 10 ^ exponent`. -/
structure Decimal.Scaled where
  digits : Nat
  exponent : Int
deriving DecidableEq, Repr

namespace Double

/-- Whether a decimal rounds to the magnitude of a positive rank. It does between
the midpoints to the two neighbours, which themselves round to the even rank. -/
def readsBack (rank : Nat) (d : Decimal.Scaled) : Bool :=
  let here := unitsOfRank rank
  let twice := 2 * d.digits * tenTo d.exponent.toNat * unit
  let scale := tenTo (-d.exponent).toNat
  let low := (unitsOfRank (rank - 1) + here) * scale
  let high := (here + unitsOfRank (rank + 1)) * scale
  if rank % 2 = 0 then low ≤ twice && twice ≤ high else low < twice && twice < high

def belowPowerOfTen (units : Nat) (k : Int) : Bool :=
  units * tenTo (-k).toNat < tenTo k.toNat * unit

/-- The least power of ten above a positive magnitude. -/
def decimalScale (units : Nat) : Int :=
  let estimate := (((units.log2 : Int) - 1074) * 30103) / 100000
  if belowPowerOfTen units estimate then estimate
  else if belowPowerOfTen units (estimate + 1) then estimate + 1
  else estimate + 2

/-- The one of two decimals that reads back; if both do, the one on the side of the magnitude,
and in the middle the even one. -/
def choose? (rank : Nat) (below above : Decimal.Scaled) (side : Ordering) :
    Option Decimal.Scaled :=
  match readsBack rank below, readsBack rank above with
  | false, false => none
  | true, false => some below
  | false, true => some above
  | true, true =>
    match side with
    | .lt => some below
    | .gt => some above
    | .eq => if below.digits % 2 = 0 then some below else some above

/-- The better of the two neighbours of a magnitude on the grid of multiples of
`10 ^ exponent`, if one of them reads back. -/
def nearestOnGrid? (rank : Nat) (exponent : Int) : Option Decimal.Scaled :=
  let scaled := unitsOfRank rank * tenTo (-exponent).toNat
  let step := tenTo exponent.toNat * unit
  choose? rank ⟨scaled / step, exponent⟩ ⟨scaled / step + 1, exponent⟩
    (Ord.compare (2 * (scaled % step)) step)

/-- The decimals of one, two, … digits are tried in turn; seventeen digits always
suffice, and the exact value stands behind them. -/
def shortest (rank : Nat) : Decimal.Scaled :=
  let scale := decimalScale (unitsOfRank rank)
  match (List.range 17).findSome? fun n => nearestOnGrid? rank (scale - (n + 1 : Nat)) with
  | some d => d
  | none => ⟨unitsOfRank rank * (tenTo 1074 / twoTo 1074), -1074⟩

end Double

end Reshape
