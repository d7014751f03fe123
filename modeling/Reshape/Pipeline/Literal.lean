import Reshape.Grammar.Quotation
import Reshape.Json.Read

namespace Reshape.Pipeline

open Reshape.Grammar Reshape.Text

/-- The content of a text that stands between single quotes. -/
def singleQuoted? (cs : List Char) : Option (List Char) :=
  match cs with
  | '\'' :: rest => if rest.getLast? = some '\'' then some rest.dropLast else none
  | _ => none

def decode (text : String) : Except Json.Refusal Value :=
  let cs := trim text.toList
  match singleQuoted? cs with
  | some content => .ok (.string (String.ofList (unescapeChars '\'' content)))
  | none => Json.read (String.ofList cs)

end Reshape.Pipeline
