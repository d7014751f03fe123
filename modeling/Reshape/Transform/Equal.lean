import Reshape.Transform.Basic
import Reshape.Value.Equal

namespace Reshape

def Substitution.equal (a b : Substitution) : Bool :=
  a.regex.text == b.regex.text && a.replacement == b.replacement && a.limit == b.limit

mutual

/-- Two transforms are of one form and made from equal data. Queries, patterns and replacements are
compared as they are written. -/
def Transform.equal : Transform → Transform → Bool
  | .operation o, .operation p => o == p
  | .select q, .select r => q == r
  | .mutate q c, .mutate r d => q == r && Chain.equal c d
  | .delete q, .delete r => q == r
  | .remove q, .remove r => q == r
  | .flattenKeys name, .flattenKeys other => name == other
  | .deleteKeys r, .deleteKeys s => r.text == s.text
  | .eachKey c, .eachKey d => Chain.equal c d
  | .eachValue c, .eachValue d => Chain.equal c d
  | .visitKeys c m, .visitKeys d n => Chain.equal c d && m == n
  | .visitValues c m, .visitValues d n => Chain.equal c d && m == n
  | .sort o m, .sort p n => o == p && m == n
  | .replaceString a, .replaceString b => a.equal b
  | .wrapArray, .wrapArray => true
  | .wrapObject key, .wrapObject other => key == other
  | .insertElement i v, .insertElement j w => i == j && v.equal w
  | .insertEntry key v, .insertEntry other w => key == other && v.equal w
  | _, _ => false

def Chain.equal : List Transform → List Transform → Bool
  | [], [] => true
  | t :: c, u :: d => t.equal u && Chain.equal c d
  | _, _ => false

end

/-- A single transform is never equal to a chain. -/
def Stage.equal : Stage → Stage → Bool
  | .transform t, .transform u => t.equal u
  | .chain c, .chain d => Chain.equal c d
  | _, _ => false

end Reshape
