namespace Reshape.Query

/-- A bound that counts from the end if it is negative, kept within limits. -/
def bound (length : Nat) (low high : Int) (i : Int) : Int :=
  max low (min high (if i < 0 then i + length else i))

/-- The positions from a first one on that lie before a last one. The fuel bounds their
number. -/
def ascend (last : Int) (step : Int) : Nat → Int → List Nat
  | 0, _ => []
  | fuel + 1, i => if i < last then i.toNat :: ascend last step fuel (i + step) else []

def descend (last : Int) (step : Int) : Nat → Int → List Nat
  | 0, _ => []
  | fuel + 1, i => if last < i then i.toNat :: descend last step fuel (i + step) else []

/-- The positions that a slice of an array takes. The step is not zero. -/
def slicePositions (length : Nat) (first last : Option Int) (step : Int) : List Nat :=
  if 0 < step then
    let within := bound length 0 length
    ascend ((last.map within).getD length) step length ((first.map within).getD 0)
  else
    let within := bound length (-1) (length - 1)
    descend ((last.map within).getD (-1)) step length ((first.map within).getD (length - 1))

end Reshape.Query
