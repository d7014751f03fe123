import Reshape.Fault
import Reshape.Host.Basic
import Reshape.Number.Read
import Reshape.Relation

namespace Reshape

namespace Host

/-- Why outside data makes no number. -/
inductive NumberError where
  | isBoolean
  | hasNoSign (typeName : String)
  | undefinedInteger
  | infiniteInteger
  | integerTooLarge
  | notAReal (s : String)
  | notNumeric (typeName : String)
deriving DecidableEq, Repr

namespace NumberError

def message : NumberError → String
  | isBoolean => "bool is not a number"
  | hasNoSign typeName =>
    "'>=' not supported between instances of '" ++ typeName ++ "' and 'int'"
  | undefinedInteger => "cannot convert float NaN to integer"
  | infiniteInteger => "cannot convert float infinity to integer"
  | integerTooLarge => "int too large to convert to float"
  | notAReal s => (Number.ReadError.notAReal s).message
  | notNumeric typeName =>
    "float() argument must be a string or a real number, not '" ++ typeName ++ "'"

end NumberError

/-- The form of a number and its integer part. The form goes by the sign before the
fraction is cut off. -/
def integerPart : Host → Except NumberError (Number.Kind × Int)
  | integer i => .ok ((Number.int i).kind, i)
  | number (.int i) => .ok ((Number.int i).kind, i)
  | number (.float x) => .ok (if x.ordinal < 0 then .negativeInt else .positiveInt, x.truncate)
  | real (.finite x) =>
    .ok (if x.ordinal < 0 then .negativeInt else .positiveInt, x.truncate)
  | real (.infinite _) => .error .infiniteInteger
  | real .undefined => .error .undefinedInteger
  | boolean _ => .error .isBoolean
  | other => .error (.hasNoSign other.typeName)

def roundedInteger (i : Int) : Except NumberError ExtendedDouble :=
  match Double.ofInt? i with
  | some x => .ok (.finite x)
  | none => .error .integerTooLarge

/-- The binary64 number that outside data denotes or spells. -/
def realPart : Host → Except NumberError ExtendedDouble
  | boolean b => roundedInteger (if b then 1 else 0)
  | integer i => roundedInteger i
  | number (.int i) => roundedInteger i
  | number (.float x) => .ok (.finite x)
  | real x => .ok x
  | text s =>
    match Number.readReal? s.toList with
    | some x => .ok x
    | none => .error (.notAReal s)
  | other => .error (.notNumeric other.typeName)

/-- Only numbers can be compared with numbers. -/
def operand? : Host → Option Number.Operand
  | integer i => some (.integer i)
  | real x => some (.real x)
  | number n => some (.number n)
  | _ => none

end Host

namespace Number

/-- The order of a number and an operand. -/
def compareOperand (n : Number) (other : Operand) : Except Fault Ordering :=
  match n.compareOperand? other with
  | some o => .ok o
  | none => .error .integerTooLarge

/-- Whether a relation holds between a number and an operand. Equality never rounds,
so that a pair can be equal in order without being equal. -/
def relatesToOperand (n : Number) (relation : Relation) (other : Operand) :
    Except Fault Bool :=
  match relation with
  | .equal => .ok (n.equalsOperand other)
  | .unequal => .ok (!n.equalsOperand other)
  | _ => (n.compareOperand other).map relation.holds

/-- Whether a relation holds between a number and outside data. What is no number is
unequal to every number and stands in no order with it. -/
def relatesTo (n : Number) (relation : Relation) (other : Host) : Except Fault Bool :=
  match other.operand? with
  | some operand => n.relatesToOperand relation operand
  | none =>
    match relation with
    | .equal => .ok false
    | .unequal => .ok true
    | _ => .error (.incomparable relation.symbol "Number" other.typeName)

end Number

end Reshape
