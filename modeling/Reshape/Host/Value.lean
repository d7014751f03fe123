import Reshape.Host.Basic
import Reshape.Value.Basic

namespace Reshape

namespace Host

/-- Why outside data makes no document. -/
inductive ValueError where
  | foreignKey (typeName : String)
  | foreignData (typeName : String)
  | notAValue (typeName : String)
deriving DecidableEq, Repr

namespace ValueError

def message : ValueError → String
  | foreignKey typeName => "object keys must be strings, got " ++ typeName
  | foreignData typeName => "cannot convert " ++ typeName ++ " to a value"
  | notAValue typeName => "not a value: " ++ typeName

end ValueError

mutual

/-- Numbers that are not finite become null, tuples become arrays, and tables with string keys
become objects. -/
def toValue : Host → Except ValueError Value
  | nothing => .ok .null
  | boolean b => .ok (.bool b)
  | integer i => .ok (.number (.int i))
  | real (.finite x) => .ok (.number (.float x))
  | real _ => .ok .null
  | text s => .ok (.string s)
  | list items => (toValues items).map .array
  | tuple items => (toValues items).map .array
  | table entries => (toEntries [] entries).map .object
  | set => .error (.foreignData "set")
  | bytes => .error (.foreignData "bytes")
  | number n => .ok (.number n)

def toValues : List Host → Except ValueError (List Value)
  | [] => .ok []
  | x :: xs =>
    match toValue x with
    | .error e => .error e
    | .ok v => (toValues xs).map (v :: ·)

/-- Adds entries in order; a key is looked at before its value. -/
def toEntries (done : Entries Value) :
    List (Host × Host) → Except ValueError (Entries Value)
  | [] => .ok done
  | (text k, x) :: rest =>
    match toValue x with
    | .error e => .error e
    | .ok v => toEntries (done.insert k v) rest
  | (key, _) :: _ => .error (.foreignKey key.typeName)

end

/-- The kind of outside data that already has the form of a document. -/
def kind : Host → Except ValueError Value.Kind
  | nothing => .ok .null
  | boolean _ => .ok .bool
  | number _ => .ok .number
  | text _ => .ok .string
  | table _ => .ok .object
  | list _ => .ok .array
  | other => .error (.notAValue other.typeName)

end Host

namespace Value

mutual

/-- A document as outside data. -/
def toHost : Value → Host
  | null => .nothing
  | bool b => .boolean b
  | number (.int i) => .integer i
  | number (.float x) => .real (.finite x)
  | string s => .text s
  | array items => .list (toHosts items)
  | object entries => .table (toTable entries)
  | bare (.integer i) => .integer i
  | bare (.real x) => .real x

def toHosts : List Value → List Host
  | [] => []
  | v :: vs => toHost v :: toHosts vs

def toTable : List (String × Value) → List (Host × Host)
  | [] => []
  | (k, v) :: rest => (.text k, toHost v) :: toTable rest

end

end Value

end Reshape
