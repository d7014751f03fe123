import Reshape.Double.Extended
import Reshape.Relation

namespace Reshape.Query

/-- How a match and a literal are compared. -/
inductive Comparison where
  | relating (relation : Relation)
  /-- The literal is a pattern that the match contains. -/
  | pattern
deriving DecidableEq

inductive Literal where
  | text (s : String)
  | integer (i : Int)
  | real (x : ExtendedDouble)
  | flag (b : Bool)
  | null
deriving DecidableEq

mutual

inductive Path where
  | root
  | here
  | parent
  /-- The number of characters, elements or entries. -/
  | size
  | keys
  | fields (names : List String)
  | children
  | indices (indices : List Int)
  | slice (first last step : Option Int)
  | filter (condition : Condition)
  | child (left right : Path)
  /-- The matches of the right path at all nodes at and below those of the left one. -/
  | descent (left right : Path)
  | union (left right : Path)

inductive Condition where
  /-- There is a match. -/
  | found (path : Path)
  /-- There is a match that compares with a literal. -/
  | compared (path : Path) (comparison : Comparison) (literal : Literal)
  | both (first second : Condition)

end

instance : Inhabited Path :=
  ⟨.here⟩

end Reshape.Query
