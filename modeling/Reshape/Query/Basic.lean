import Reshape.Edit

/-!
Queries: what they select from a document, and how they edit it. An engine, of which nothing
else is known here, compiles queries and evaluates them.
-/

namespace Reshape

namespace Query

/-- The way to a match, in the forms that an engine gives it. -/
inductive FullPath where
  | root
  | this
  | child (left right : FullPath)
  | fields (names : List String)
  | index (first : Int) (more : List Int)
  /-- Any other form, such as that of a computed value. -/
  | other
deriving DecidableEq, Repr

/-- The way from the root, if there is one and it addresses a single node. -/
def FullPath.segments? : FullPath → Option Key
  | root => some []
  | this => some []
  | child left right =>
    match left.segments?, right.segments? with
    | some key, some rest => some (key ++ rest)
    | _, _ => none
  | fields [name] => some [.ident name]
  | fields _ => none
  | index i [] => some [.index i]
  | index _ _ => none
  | other => none

structure Match where
  value : Value
  path : FullPath

/-- Why a text is no query. -/
structure Error where
  typeName : String
  message : String

/-- The message for a malformed query. -/
def Error.report (e : Error) : String :=
  "Failed to parse JSONPath query:\n" ++ e.message

/-- Compiles queries to functions that give the matches in a document. -/
structure Engine where
  compile : String → Except Error (Value → Except Fault (List Match))

end Query

structure Query where
  text : String
  find : Value → Except Fault (List Query.Match)

namespace Query

/-- Two queries are the same if they are written alike. -/
instance : BEq Query :=
  ⟨fun q r => q.text == r.text⟩

def Engine.read (engine : Engine) (text : String) : Except Error Query :=
  match engine.compile text with
  | .error e => .error e
  | .ok find => .ok ⟨text, find⟩

/-- The values of all matches, in order. -/
def select (query : Query) (v : Value) : Except Fault (List Value) :=
  (query.find v).map fun found => found.map Match.value

/-- The ways to the matches that are part of the document. -/
def locations (query : Query) (v : Value) : Except Fault (List Key) :=
  (query.find v).map fun found => found.filterMap fun m => m.path.segments?

/-- Replaces all matches that are part of the document. -/
def edit {m : Type → Type} [Monad m] [MonadExceptOf Fault m] (query : Query)
    (replace : Value → m (Option Value)) (v : Value) : m Value := do
  match query.locations v with
  | .ok locations => Edit.all replace locations v
  | .error e => throw e

end Query

end Reshape
