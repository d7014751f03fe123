import Reshape.Double.Round
import Reshape.Double.Text

namespace Reshape

inductive ExtendedDouble where
  | finite (x : Double)
  | infinite (negative : Bool)
  | undefined
deriving DecidableEq

namespace ExtendedDouble

def text : ExtendedDouble → String
  | finite x => x.text
  | infinite negative => if negative then "-inf" else "inf"
  | undefined => "nan"

/-- The text in a document that is written. -/
def jsonText : ExtendedDouble → String
  | finite x => x.text
  | infinite negative => if negative then "-Infinity" else "Infinity"
  | undefined => "NaN"

def finite? : ExtendedDouble → Option Double
  | finite x => some x
  | infinite _ => none
  | undefined => none

/-- The undefined number stands in no order. -/
def compare? : ExtendedDouble → ExtendedDouble → Option Ordering
  | finite x, finite y => some (x.compare y)
  | finite _, infinite negative => some (if negative then .gt else .lt)
  | infinite negative, finite _ => some (if negative then .lt else .gt)
  | infinite s, infinite t =>
    some (if s == t then .eq else if s then .lt else .gt)
  | undefined, _ => none
  | _, undefined => none

end ExtendedDouble

end Reshape
