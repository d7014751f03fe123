import Reshape.Host.Number
import Reshape.Pattern.Match
import Reshape.Pattern.Read
import Reshape.Query.Path
import Reshape.Value.Basic

namespace Reshape.Query

def Literal.typeName : Literal → String
  | .text _ => "str"
  | .integer _ => "int"
  | .real _ => "float"
  | .flag _ => "bool"
  | .null => "NoneType"

/-- The name of a kind of match, as messages give it. -/
def valueTypeName : Value → String
  | .null => "NoneType"
  | .bool _ => "bool"
  | .number _ => "Number"
  | .string _ => "str"
  | .array _ => "list"
  | .object _ => "dict"
  | .bare x => x.typeName

def Literal.operand? : Literal → Option Number.Operand
  | .integer i => some (.integer i)
  | .real x => some (.real x)
  | _ => none

/-- What holds of two things that have nothing to do with each other: they are unequal
and stand in no order. -/
def unrelated (relation : Relation) (v : Value) (literal : Literal) : Except Fault Bool :=
  match relation with
  | .equal => .ok false
  | .unequal => .ok true
  | _ => .error (.incomparable relation.symbol (valueTypeName v) literal.typeName)

/-- Booleans are only equal or unequal; no order holds. -/
def relatesFlags (relation : Relation) (same : Bool) : Bool :=
  match relation with
  | .equal => same
  | .unequal => !same
  | _ => false

/-- A string compared with a numeral is read as one; it relates in no way if it is
none. -/
def relatesText (relation : Relation) (s : String) (literal : Literal) : Except Fault Bool :=
  match literal with
  | .text t => .ok (relation.holds (Ord.compare s t))
  | .integer i =>
    match Number.readInt? s.toList with
    | some j => .ok (relation.holds (Ord.compare j i))
    | none => .ok false
  | _ => unrelated relation (.string s) literal

def Literal.bare? : Literal → Option Bare
  | .integer i => some (.integer i)
  | .real x => some (.real x)
  | _ => none

/-- Neither of two bare numbers is rounded. -/
def relatesBare (relation : Relation) (x : Bare) (literal : Literal) : Except Fault Bool :=
  match literal.bare? with
  | some y =>
    match x.compare? y with
    | some o => .ok (relation.holds o)
    | none => .ok (relation == .unequal)
  | none => unrelated relation (.bare x) literal

def relates (relation : Relation) (v : Value) (literal : Literal) : Except Fault Bool :=
  match v, literal with
  | .bool b, .flag c => .ok (relatesFlags relation (b == c))
  | .bool _, _ => .ok (relatesFlags relation false)
  | _, .flag _ => .ok (relatesFlags relation false)
  | .string s, _ => relatesText relation s literal
  | .null, .null =>
    match relation with
    | .equal => .ok true
    | .unequal => .ok false
    | _ => unrelated relation v literal
  | .number n, _ =>
    match literal.operand? with
    | some operand => n.relatesToOperand relation operand
    | none => unrelated relation v literal
  | .bare x, _ => relatesBare relation x literal
  | _, _ => unrelated relation v literal

/-- Whether a string contains a match of a pattern. -/
def matchesPattern (v : Value) (literal : Literal) : Except Fault Bool :=
  match v, literal with
  | .string s, .text pattern =>
    match Pattern.Regex.read (fun _ => none) pattern with
    | .ok regex => .ok (regex.isIn s)
    | .error e => .error (.raised e.typeName (e.message pattern))
  | _, _ => .ok false

def Comparison.holds (comparison : Comparison) (v : Value) (literal : Literal) :
    Except Fault Bool :=
  match comparison with
  | .relating relation => relates relation v literal
  | .pattern => matchesPattern v literal

end Reshape.Query
