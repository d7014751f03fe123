import Reshape.Value.Basic

namespace Reshape.Value

mutual

/-- The order of the entries of an object does not count. Numbers are equal only within one form. -/
def equal : Value → Value → Bool
  | null, null => true
  | bool a, bool b => a == b
  | number m, number n => m.equal n
  | string s, string t => s == t
  | array xs, array ys => equalItems xs ys
  | object es, object fs => es.length == fs.length && entriesWithin es fs
  | bare x, bare y => x.compare? y == some .eq
  | _, _ => false

def equalItems : List Value → List Value → Bool
  | [], [] => true
  | x :: xs, y :: ys => equal x y && equalItems xs ys
  | _, _ => false

/-- Whether each of the first entries has an equal one under the same key. -/
def entriesWithin : List (String × Value) → List (String × Value) → Bool
  | [], _ => true
  | (k, v) :: es, fs =>
    (match Entries.find? fs k with
      | some w => equal v w
      | none => false) && entriesWithin es fs

end

end Reshape.Value
