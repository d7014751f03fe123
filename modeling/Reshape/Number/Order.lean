import Reshape.Number.Basic

/-!
Equality and order of numbers. Equality stays within one form. The order is exact
within one form and rounds the integer of a mixed pair to binary64.
-/

namespace Reshape.Number

def equal : Number → Number → Bool
  | int i, int j => i == j
  | float x, float y => x.ordinal == y.ordinal
  | _, _ => false

/-- No result when the integer of a mixed pair is too large to round. -/
def compare? : Number → Number → Option Ordering
  | int i, int j => some (Ord.compare i j)
  | float x, float y => some (x.compare y)
  | int i, float y => (Double.ofInt? i).map (·.compare y)
  | float x, int j => (Double.ofInt? j).map x.compare

/-- What a number can be compared with from outside a document: a plain integer or
any binary64 number. -/
inductive Operand where
  | number (n : Number)
  | integer (i : Int)
  | real (x : ExtendedDouble)
deriving DecidableEq

/-- The integer or the binary64 number that an operand stands for. -/
def Operand.value : Operand → Int ⊕ ExtendedDouble
  | number (int i) => .inl i
  | number (float x) => .inr (.finite x)
  | integer i => .inl i
  | real x => .inr x

def equalsOperand (n : Number) (other : Operand) : Bool :=
  match n, other.value with
  | int i, .inl j => i == j
  | float x, .inr y => (ExtendedDouble.finite x).compare? y == some .eq
  | _, _ => false

/-- The undefined number compares as equal with every number. -/
def compareOperand? (n : Number) (other : Operand) : Option Ordering :=
  match n, other.value with
  | int i, .inl j => some (Ord.compare i j)
  | float x, .inr y => some (((ExtendedDouble.finite x).compare? y).getD .eq)
  | int i, .inr y =>
    (Double.ofInt? i).map fun x => ((ExtendedDouble.finite x).compare? y).getD .eq
  | float x, .inl j => (Double.ofInt? j).map fun y => x.compare y

end Reshape.Number
