import Reshape.Decimal

namespace Reshape

inductive Fault where
  /-- A bare number took part in a comparison of documents. -/
  | bareNumber (typeName : String)
  /-- An integer that is compared with a binary64 number is too large for one. -/
  | integerTooLarge
  /-- Two things are ordered that stand in no order. -/
  | incomparable (relation left right : String)
  /-- The engine of a query raises an error. -/
  | raised (typeName message : String)
  /-- A limit of replacements needs more than 63 bits. -/
  | limitTooLarge
  /-- An array index needs more than 63 bits. -/
  | indexTooLarge
  /-- A flat key has an index of more digits than are read. -/
  | indexTooLong (digits : Nat)
  /-- An integer has more digits than are written. -/
  | integerTooLong
  /-- The width of an indentation needs more than 63 bits. -/
  | indentTooLarge
deriving DecidableEq, Repr

namespace Fault

def message : Fault → String
  | bareNumber typeName => "not a value: " ++ typeName
  | integerTooLarge => "int too large to convert to float"
  | incomparable relation left right =>
    "'" ++ relation ++ "' not supported between instances of '" ++ left ++ "' and '" ++
      right ++ "'"
  | raised _ message => message
  | limitTooLarge => "Python int too large to convert to C ssize_t"
  | indexTooLarge => "cannot fit 'int' into an index-sized integer"
  | indexTooLong digits =>
    "Error trying to process rule \"index\":\n\n" ++ Decimal.tooLongToRead digits
  | integerTooLong => Decimal.tooLongToWrite
  | indentTooLarge => "cannot fit 'int' into an index-sized integer"

end Fault

end Reshape
