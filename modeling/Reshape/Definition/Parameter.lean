import Reshape.Json.Write
import Reshape.Text.Case
import Reshape.Text.Search

namespace Reshape

structure Parameter where
  name : String
  required : Bool
  /-- The value that a call gets which leaves the parameter out. -/
  fallback : Option Value
  description : Option String

namespace Parameter

def ofName (name : String) : Parameter :=
  ⟨name, true, none, none⟩

/-- A parameter with a fallback is not required. -/
def withFallback (p : Parameter) (v : Value) : Parameter :=
  { p with fallback := some v, required := false }

def withRequired (p : Parameter) (required : Bool) : Parameter :=
  { p with required := required }

def withDescription (p : Parameter) (description : String) : Parameter :=
  { p with description := some description }

/-- Required parameters come first, and those with a fallback last. -/
def rank (p : Parameter) : Nat :=
  if p.fallback.isSome then 2 else if p.required then 0 else 1

/-- Whether a keyword occurs in a text in lower case. -/
def mentions (keyword text : String) : Bool :=
  Text.occursIn keyword.toList (Text.lower text).toList

def containsKeyword (p : Parameter) (keyword : String) : Bool :=
  mentions keyword p.name || p.description.any (mentions keyword)

def text (p : Parameter) : Except Fault String :=
  match p.fallback with
  | some v => v.json.map fun fallback => p.name ++ "=" ++ fallback
  | none => .ok p.name

end Parameter

end Reshape
