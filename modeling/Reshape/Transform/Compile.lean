import Reshape.Definition.Match
import Reshape.Pipeline.Read
import Reshape.Transform.Build
import Reshape.Transform.Builtin

namespace Reshape

/-- Why a pipeline does not compile. -/
inductive CompileError where
  | malformed (diagnostic : Grammar.Diagnostic)
  | mismatch (e : MatchError)
  | build (e : BuildError)

namespace Registry

/-- The matches of the calls of a pipeline. -/
def parse (registry : Registry) (text : String) : Except CompileError (List Match) :=
  match Pipeline.read text with
  | .error d => .error (.malformed d)
  | .ok calls =>
    match registry.matchCalls calls with
    | .error e => .error (.mismatch e)
    | .ok found => .ok found

/-- The matches of several pipelines, one behind the other. -/
def parseAll (registry : Registry) : List String → Except CompileError (List Match)
  | [] => .ok []
  | text :: rest =>
    match registry.parse text with
    | .error e => .error e
    | .ok found => (registry.parseAll rest).map (found ++ ·)

/-- Compiles several pipelines to one chain. All of them are matched before any
transform is built. -/
def compile [Tools] (registry : Registry) (texts : List String) : Except CompileError Chain :=
  match registry.parseAll texts with
  | .error e => .error e
  | .ok found =>
    match buildAll found with
    | .error e => .error (.build e)
    | .ok chain => .ok chain

end Registry

end Reshape
