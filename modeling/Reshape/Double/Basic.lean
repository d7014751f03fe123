import Reshape.Power

/-!
Finite numbers of the binary64 format. A number is kept as its sign and the rank
of its magnitude among the non-negative finite numbers in ascending order, so
that neighbours have neighbouring ranks and the order is the order of ranks.
-/

namespace Reshape

/-- The number of finite magnitudes, zero included. -/
def Double.magnitudes : Nat :=
  2047 * twoTo 52

structure Double where
  negative : Bool
  rank : Nat
  rank_lt : rank < Double.magnitudes
deriving DecidableEq

namespace Double

/-- The magnitude of a rank, as a multiple of the least positive number 2⁻¹⁰⁷⁴. -/
def unitsOfRank (rank : Nat) : Nat :=
  if rank < twoTo 52 then rank
  else (twoTo 52 + rank % twoTo 52) * twoTo (rank / twoTo 52 - 1)

/-- The number one in multiples of the least positive number. -/
def unit : Nat :=
  twoTo 1074

def units (x : Double) : Nat :=
  unitsOfRank x.rank

def signedUnits (x : Double) : Int :=
  if x.negative then -(x.units : Int) else x.units

/-- The place in the order; the two zeros share one. -/
def ordinal (x : Double) : Int :=
  if x.negative then -x.rank else x.rank

def compare (x y : Double) : Ordering :=
  Ord.compare x.ordinal y.ordinal

/-- The integer part, rounded toward zero. -/
def truncate (x : Double) : Int :=
  let whole : Int := ↑(x.units / unit)
  if x.negative then -whole else whole

def isZero (x : Double) : Bool :=
  x.rank == 0

/-- The number of a sign and a rank, unless it lies beyond the greatest one. -/
def ofRank? (negative : Bool) (rank : Nat) : Option Double :=
  if h : rank < magnitudes then some ⟨negative, rank, h⟩ else none

def zero (negative : Bool) : Double :=
  ⟨negative, 0, by decide⟩

end Double

end Reshape
