import Reshape.Pattern.Template
import Reshape.Query.Basic
import Reshape.Value.Sort

namespace Reshape

/-- A transform that needs no further data. -/
inductive Operation where
  | flatten
  | removeEmptyValues
  | deepMerge
  | expandKeys
  | keys
  | values
  | arraysToObjects
deriving DecidableEq, Repr

def Operation.name : Operation → String
  | flatten => "flatten"
  | removeEmptyValues => "remove_empty_values"
  | deepMerge => "deep_merge"
  | expandKeys => "expand_keys"
  | keys => "keys"
  | values => "values"
  | arraysToObjects => "arrays_to_objects"

/-- A replacement for the matches of a pattern, of which a limit other than zero gives
the greatest number. -/
structure Substitution where
  regex : Pattern.Regex
  replacement : String
  template : Pattern.Template
  limit : Nat

inductive Transform where
  | operation (operation : Operation)
  | select (query : Query)
  /-- Replaces every match by the outcome of a chain. -/
  | mutate (query : Query) (chain : List Transform)
  /-- Replaces every match by null. -/
  | delete (query : Query)
  | remove (query : Query)
  | flattenKeys (rootName : String)
  | deleteKeys (regex : Pattern.Regex)
  | eachKey (chain : List Transform)
  | eachValue (chain : List Transform)
  | visitKeys (chain : List Transform) (maxDepth : Option Nat)
  | visitValues (chain : List Transform) (maxDepth : Option Nat)
  | sort (order : SortOrder) (maxDepth : Option Nat)
  | replaceString (substitution : Substitution)
  | wrapArray
  | wrapObject (key : String)
  | insertElement (index : Nat) (v : Value)
  | insertEntry (key : String) (v : Value)

/-- Transforms that are applied one after the other. -/
abbrev Chain :=
  List Transform

/-- What can be composed: one transform or a chain. -/
inductive Stage where
  | transform (t : Transform)
  | chain (members : Chain)

namespace Stage

def members : Stage → Chain
  | transform t => [t]
  | chain members => members

/-- The chain of some stages. Chains among them dissolve into their members. -/
def concat (stages : List Stage) : Chain :=
  stages.flatMap members

/-- The chain that goes through one stage and then through another. -/
def andThen : Stage → Stage → Stage
  | transform t, next => chain (concat [transform t, next])
  | chain members, next => chain (concat (members.map transform ++ [next]))

end Stage

end Reshape
