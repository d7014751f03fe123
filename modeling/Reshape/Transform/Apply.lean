import Reshape.Json.Write
import Reshape.Key.Expand
import Reshape.Key.Flatten
import Reshape.Transform.Basic
import Reshape.Value.Shape
import Reshape.Value.Walk

namespace Reshape

def Operation.apply : Operation → Value → Except Fault Value
  | flatten, v => .ok v.flatten
  | removeEmptyValues, v => .ok v.withoutEmpty
  | deepMerge, v => .ok v.mergeElements
  | expandKeys, v => Key.expand v
  | keys, v => .ok v.keysArray
  | values, v => .ok v.membersArray
  | arraysToObjects, v => .ok v.arraysToObjects

namespace Substitution

/-- The first number of replacements that cannot be counted. -/
def limitBound : Nat :=
  twoTo 63

def apply (substitution : Substitution) : Value → Except Fault Value
  | .string s =>
    if limitBound ≤ substitution.limit then .error .limitTooLarge
    else
      .ok (.string
        (substitution.regex.replace substitution.template substitution.limit s))
  | v => .ok v

end Substitution

namespace Value

/-- Applies a function to the elements of an array or the values of an object. -/
def mapMembers (f : Value → Except Fault Value) : Value → Except Fault Value
  | array vs => (vs.mapM f).map array
  | object entries => (entries.mapM fun e => (f e.2).map (e.1, ·)).map object
  | v => .ok v

/-- Applies a function to the keys of an object. -/
def mapKeys (f : String → Except Fault String) : Value → Except Fault Value
  | object entries =>
    (entries.mapM fun e => (f e.1).map (·, e.2)).map fun pairs => object (Entries.ofList pairs)
  | v => .ok v

/-- Leaves out the entries of an object whose keys match. -/
def deleteKeys (regex : Pattern.Regex) : Value → Value
  | object entries => object (entries.filter fun e => !regex.isIn e.1)
  | v => v

end Value

mutual

/-- A transform leaves alone what it is not made for. -/
def Transform.apply : Transform → Value → Except Fault Value
  | .operation operation, v => operation.apply v
  | .select query, v => (query.select v).map .array
  | .mutate query chain, v => query.edit (fun w => some <$> Chain.apply chain w) v
  | .delete query, v => query.edit (fun _ => .ok (some .null)) v
  | .remove query, v => query.edit (fun _ => .ok none) v
  | .flattenKeys rootName, v => .ok (.object (Key.flatten v rootName))
  | .deleteKeys regex, v => .ok (v.deleteKeys regex)
  | .eachKey chain, v =>
    v.mapKeys fun key => Chain.apply chain (.string key) >>= Value.plainText
  | .eachValue chain, v => v.mapMembers fun w => Chain.apply chain w
  | .visitKeys chain maxDepth, v =>
    v.walk (fun key => Chain.apply chain (.string key) >>= Value.plainText) pure
      (maxDepth.map (· + 1))
  | .visitValues chain maxDepth, v =>
    v.walk pure (fun w => Chain.apply chain w) (maxDepth.map (· + 1))
  | .sort order maxDepth, v => v.sort order maxDepth
  | .replaceString substitution, v => substitution.apply v
  | .wrapArray, v => .ok (.array [v])
  | .wrapObject key, v => .ok (.object [(key, v)])
  | .insertElement index w, v => .ok (v.insertElement index w)
  | .insertEntry key w, v => .ok (v.insertEntry key w)

/-- Applies the members of a chain one after the other. -/
def Chain.apply : List Transform → Value → Except Fault Value
  | [], v => .ok v
  | t :: rest, v =>
    match t.apply v with
    | .error e => .error e
    | .ok w => Chain.apply rest w

end

namespace Stage

def apply : Stage → Value → Except Fault Value
  | transform t, v => t.apply v
  | chain members, v => Chain.apply members v

end Stage

end Reshape
