import Reshape.Query.Basic
import Reshape.Query.Find
import Reshape.Query.Read
import Reshape.Tools

/-!
An engine for the part of the query language that consists of paths.
-/

namespace Reshape.Query

/-- The full path of a node. -/
def FullPath.ofKey : Key → FullPath :=
  List.foldl extend root
where
  extend (left : FullPath) : Key.Segment → FullPath
    | .ident name => child left (fields [name])
    | .index i => child left (index i [])

theorem FullPath.segments?_ofKey (key : Key) : (FullPath.ofKey key).segments? = some key := by
  have hextend : ∀ (left : FullPath) (start : Key), left.segments? = some start →
      (List.foldl ofKey.extend left key).segments? = some (start ++ key) := by
    induction key with
    | nil => exact fun left start hleft => by rw [List.foldl_nil, hleft, List.append_nil]
    | cons segment rest ih =>
        intro left start hleft
        have hstep : (ofKey.extend left segment).segments? = some (start ++ [segment]) := by
          cases segment <;> rw [ofKey.extend, segments?, hleft] <;> rfl
        rw [List.foldl_cons, ih _ _ hstep, List.append_assoc, List.singleton_append]
  exact hextend root [] rfl

def Node.fullPath (node : Node) : FullPath :=
  match node.location with
  | some key => .ofKey key
  | none => .other

theorem Node.segments?_fullPath (node : Node) : node.fullPath.segments? = node.location := by
  rw [fullPath]
  split
  · rename_i key hlocation
    rw [FullPath.segments?_ofKey, hlocation]
  · rename_i hlocation
    rw [hlocation]
    rfl

def SyntaxError.error (e : SyntaxError) : Error :=
  ⟨if e.isLexical then "JsonPathLexerError" else "JsonPathParserError", e.message⟩

def Path.matches (path : Path) (v : Value) : Except Fault (List Match) :=
  (path.find (.ofRoot v)).map fun found => found.map fun node => ⟨node.value, node.fullPath⟩

def Path.engine : Engine where
  compile text :=
    match Path.read text with
    | .error e => .error e.error
    | .ok path => .ok path.matches

theorem Path.exists_of_engine_read {text : String} {query : Query}
    (h : Path.engine.read text = .ok query) :
    ∃ path, Path.read text = .ok path ∧ query = ⟨text, path.matches⟩ := by
  rw [Engine.read, Path.engine] at h
  dsimp only at h
  cases hread : Path.read text with
  | error e =>
      rw [hread] at h
      cases h
  | ok path =>
      rw [hread] at h
      exact ⟨path, rfl, (Except.ok.inj h).symm⟩

theorem Path.engine_read {text : String} {path : Path} (h : Path.read text = .ok path) :
    Path.engine.read text = .ok ⟨text, path.matches⟩ := by
  rw [Engine.read, Path.engine]
  dsimp only
  rw [h]

end Reshape.Query

namespace Reshape

/-- The engine for paths. No character has a name. -/
abbrev Tools.ofPaths : Tools where
  engine := Query.Path.engine
  charNamed? := fun _ => none

end Reshape
