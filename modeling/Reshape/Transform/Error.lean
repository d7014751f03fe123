import Reshape.Json.Write
import Reshape.Pattern.Error
import Reshape.Query.Basic

namespace Reshape

/-- What is wrong with the data that a transform is made from. -/
inductive Defect where
  | query (e : Query.Error)
  | sortOrder (text : String)
  | regex (text : String) (e : Pattern.Error)
  | replacement (text pattern : String) (e : Pattern.Error)

def Defect.message : Defect → String
  | query e => e.report
  | sortOrder text => "Invalid sort order \x60" ++ text ++ "\x60"
  | regex text e => "Invalid regex \x60" ++ text ++ "\x60: " ++ e.message text
  | replacement text pattern e =>
    "Invalid replacement \x60" ++ text ++ "\x60 for \x60" ++ pattern ++ "\x60: " ++
      e.message text

inductive BuildError where
  | missing (function argument : String)
  | notAnExpression (function argument : String) (v : Value)
  | notAValue (function argument : String) (calls : List String)
  | notOfKind (function argument kind : String) (v : Value)
  | notUnsigned (function argument : String) (n : Number)
  | neitherKeyNorIndex (function argument : String) (v : Value)
  /-- What an argument is made into has an error of its own. -/
  | within (function argument : String) (reason : BuildError)
  | unknownTransformation (name : String)
  | defect (defect : Defect)
  | invalidTransformation (name : String) (defect : Defect)
  /-- An error of a pattern or a replacement that is none of the library. -/
  | exceptional (e : Pattern.Error)

namespace BuildError

def invalidArgument (function argument reason : String) : String :=
  "Invalid argument \x60" ++ argument ++ "\x60 for \x60" ++ function ++ "\x60: " ++ reason

/-- What a message says of a text. If there is no text the message is why. -/
def about (text : Except Fault String) (say : String → String) : String :=
  match text with
  | .ok s => say s
  | .error e => e.message

def message : BuildError → String
  | missing function argument =>
    "Argument \x60" ++ argument ++ "\x60 missing for \x60" ++ function ++ "\x60"
  | notAnExpression function argument v =>
    about v.json fun text =>
      invalidArgument function argument ("Expected expression, got value \x60" ++ text ++ "\x60")
  | notAValue function argument calls =>
    invalidArgument function argument
      ("Expected value, got expression \x60" ++ ".".intercalate calls ++ "\x60")
  | notOfKind function argument kind v =>
    invalidArgument function argument
      (about v.json fun text => "Expected " ++ kind ++ ", got " ++ text)
  | notUnsigned function argument n =>
    invalidArgument function argument
      (about n.text fun text => "Expected unsigned integer, got " ++ text)
  | neitherKeyNorIndex function argument v =>
    invalidArgument function argument
      (about v.json fun text => "Expected string or unsigned integer, got " ++ text)
  | within function argument reason => invalidArgument function argument reason.message
  | unknownTransformation name => "Unknown transformation \x60" ++ name ++ "\x60"
  | defect d => d.message
  | invalidTransformation name d =>
    "Invalid transformation \x60" ++ name ++ "\x60: " ++ d.message
  | exceptional e => e.message ""

end BuildError

end Reshape
