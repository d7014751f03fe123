import Reshape.Double.Shortest

namespace Reshape.Double

/-- The first exponents, of the digit before the point, that are too small and too
great for the positional form. -/
def positionalFrom : Int := -4
def positionalBelow : Int := 16

def withoutTrailingZeros (cs : List Char) : List Char :=
  (cs.reverse.dropWhile (· == '0')).reverse

/-- Places a point among digits: `pointAt` of them stand before it. -/
def positional (digits : List Char) (pointAt : Int) : List Char :=
  if pointAt ≤ 0 then
    '0' :: '.' :: List.replicate (-pointAt).toNat '0' ++ digits
  else
    let whole := digits.take pointAt.toNat
    let fraction := digits.drop pointAt.toNat
    whole ++ List.replicate (pointAt.toNat - digits.length) '0' ++
      '.' :: (if fraction.isEmpty then ['0'] else fraction)

def scientific (digits : List Char) (exponent : Int) : List Char :=
  let fraction := digits.drop 1
  let power := Decimal.digits exponent.natAbs
  digits.take 1 ++ (if fraction.isEmpty then [] else '.' :: fraction) ++
    'e' :: (if exponent < 0 then '-' else '+') ::
    List.replicate (2 - power.length) '0' ++ power

/-- The shortest digits, positional or with an exponent of at least two digits. -/
def magnitudeChars (rank : Nat) : List Char :=
  if rank = 0 then ['0', '.', '0']
  else
    let d := shortest rank
    let all := Decimal.digits d.digits
    let digits := withoutTrailingZeros all
    let pointAt := d.exponent + all.length
    if positionalFrom ≤ pointAt - 1 && pointAt - 1 < positionalBelow then
      positional digits pointAt
    else
      scientific digits (pointAt - 1)

def chars (x : Double) : List Char :=
  if x.negative then '-' :: magnitudeChars x.rank else magnitudeChars x.rank

def text (x : Double) : String :=
  String.ofList x.chars

end Reshape.Double
