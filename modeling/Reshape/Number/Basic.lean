import Reshape.Double.Extended
import Reshape.Fault

/-!
Numbers of a document: integers of any size, and finite binary64 numbers. The two
forms are kept apart, so that an integer never goes through a rounding.
-/

namespace Reshape

inductive Number where
  | int (value : Int)
  | float (value : Double)
deriving DecidableEq

namespace Number

/-- The form a number takes; integers are told apart by sign. -/
inductive Kind where
  | positiveInt
  | negativeInt
  | float
deriving DecidableEq, Repr

def kind : Number → Kind
  | int i => if i < 0 then .negativeInt else .positiveInt
  | float _ => .float

def int? : Number → Option Int
  | int i => some i
  | float _ => none

def unsigned? : Number → Option Nat
  | int i => if i < 0 then none else some i.natAbs
  | float _ => none

/-- The nearest binary64 number, unless an integer is too large for one. -/
def double? : Number → Option Double
  | int i => Double.ofInt? i
  | float x => some x

/-- The integer part, rounded toward zero. -/
def truncate : Number → Int
  | int i => i
  | float x => x.truncate

def isZero : Number → Bool
  | int i => i == 0
  | float x => x.isZero

/-- The numeral of a number, however long. -/
def chars : Number → List Char
  | int i => Decimal.signedDigits i
  | float x => x.chars

/-- Integers beyond the limit of digits are not written. -/
def isShort : Number → Bool
  | int i => Decimal.isShort i
  | float _ => true

/-- The numeral of a number, unless it has too many digits. -/
def text (n : Number) : Except Fault String :=
  if n.isShort then .ok (String.ofList n.chars) else .error .integerTooLong

end Number

/-- A number outside of documents: an integer, or any binary64 number. -/
inductive Bare where
  | integer (i : Int)
  | real (x : ExtendedDouble)
deriving DecidableEq

namespace Bare

def typeName : Bare → String
  | integer _ => "int"
  | real _ => "float"

def chars : Bare → List Char
  | integer i => Decimal.signedDigits i
  | real x => x.jsonText.toList

def isShort : Bare → Bool
  | integer i => Decimal.isShort i
  | real _ => true

/-- The exact order. The undefined number stands in none. -/
def compare? : Bare → Bare → Option Ordering
  | integer i, integer j => some (Ord.compare i j)
  | real x, real y => x.compare? y
  | integer i, real (.finite x) => some (Ord.compare (i * Double.unit) x.signedUnits)
  | real (.finite x), integer i => some (Ord.compare x.signedUnits (i * Double.unit))
  | integer _, real (.infinite negative) => some (if negative then .gt else .lt)
  | real (.infinite negative), integer _ => some (if negative then .lt else .gt)
  | integer _, real .undefined => none
  | real .undefined, integer _ => none

end Bare

end Reshape
