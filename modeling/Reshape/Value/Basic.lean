import Reshape.Number.Order
import Reshape.Value.Entries

/-!
Documents: null, booleans, numbers, strings, arrays and objects. An object keeps its
entries in the order in which they were written.
-/

namespace Reshape

inductive Value where
  | null
  | bool (b : Bool)
  | number (n : Number)
  | string (s : String)
  | array (items : List Value)
  | object (entries : List (String × Value))
  /-- A bare number, as a query may compute it. No document that is read holds one. -/
  | bare (x : Bare)

namespace Value

instance : Inhabited Value :=
  ⟨null⟩

/-- The forms of a document, in their canonical order. -/
inductive Kind where
  | null
  | bool
  | number
  | string
  | object
  | array
deriving DecidableEq, Repr

namespace Kind

def rank : Kind → Nat
  | null => 0
  | bool => 1
  | number => 2
  | string => 3
  | object => 4
  | array => 5

def name : Kind → String
  | null => "null"
  | bool => "bool"
  | number => "number"
  | string => "string"
  | object => "object"
  | array => "array"

end Kind

/-- A bare number has no kind. -/
def kind : Value → Except Fault Kind
  | null => .ok .null
  | bool _ => .ok .bool
  | number _ => .ok .number
  | string _ => .ok .string
  | array _ => .ok .array
  | object _ => .ok .object
  | bare x => .error (.bareNumber x.typeName)

def kind? (v : Value) : Option Kind :=
  v.kind.toOption

def isNull : Value → Bool
  | null => true
  | _ => false

/-- Null and the empty containers are empty. -/
def isEmpty : Value → Bool
  | null => true
  | array items => items.isEmpty
  | object entries => entries.isEmpty
  | _ => false

def bool? : Value → Option Bool
  | bool b => some b
  | _ => none

def number? : Value → Option Number
  | number n => some n
  | _ => none

def isString : Value → Bool
  | string _ => true
  | _ => false

def string? : Value → Option String
  | string s => some s
  | _ => none

def array? : Value → Option (List Value)
  | array items => some items
  | _ => none

def object? : Value → Option (Entries Value)
  | object entries => some entries
  | _ => none

/-- The elements of an array; anything else is one element. -/
def items : Value → List Value
  | array items => items
  | v => [v]

/-- The entries of an object; anything else is one entry under the given key. -/
def entriesUnder (key : String) : Value → Entries Value
  | object entries => entries
  | v => [(key, v)]

mutual

/-- Whether no integer in a document has too many digits to be written. -/
def isShort : Value → Bool
  | number n => n.isShort
  | bare x => x.isShort
  | array items => areShort items
  | object entries => haveShort entries
  | _ => true

def areShort : List Value → Bool
  | [] => true
  | v :: vs => isShort v && areShort vs

def haveShort : List (String × Value) → Bool
  | [] => true
  | (_, v) :: rest => isShort v && haveShort rest

end

end Value

end Reshape
