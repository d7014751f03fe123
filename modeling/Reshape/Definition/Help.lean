import Reshape.Definition.Basic
import Reshape.Text.Line

namespace Reshape

/-- A description indented, with a newline at its end. -/
def Definition.paragraph (margin : Nat) (description : String) : List Char :=
  let indented := Text.indent (List.replicate margin ' ') description.toList
  if indented.getLast? = some '\n' then indented else indented ++ ['\n']

def Parameter.help (p : Parameter) : List Char :=
  "\n        <".toList ++ p.name.toList ++ ">\n".toList ++
    match p.description with
    | some description => if description = "" then [] else Definition.paragraph 12 description
    | none => []

def Definition.help (d : Definition) : Except Fault (List Char) := do
  return "    ".toList ++ (← d.text).toList ++
    (if d.aliases.isEmpty then []
    else "    [aliases: ".toList ++ (", ".intercalate d.aliases).toList ++ [']']) ++
    ['\n'] ++
    (match d.description with
    | some description => if description = "" then [] else Definition.paragraph 8 description
    | none => []) ++
    d.parameters.flatMap Parameter.help

namespace Registry

/-- The definitions in ascending order of their names. -/
def byName (registry : Registry) : Registry :=
  Sorting.arrange (fun d e => !(e.name < d.name : Bool)) registry

/-- The help text for all definitions, with blank lines between them. -/
def help (registry : Registry) : Except Fault String := do
  let parts ← registry.byName.mapM Definition.help
  return String.ofList ("TRANSFORMATIONS:\n".toList ++ ['\n'].intercalate parts)

end Registry

end Reshape
