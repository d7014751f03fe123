import Reshape.Fault
import Reshape.Key.Read
import Reshape.Power
import Reshape.Value.Merge

namespace Reshape.Key

/-- The first index that no machine word holds the size for. -/
def indexLimit : Int :=
  twoTo 63 - 1

/-- The document that holds only a value at the end of a way. Arrays are filled up with
nulls before it. -/
def nest (key : Key) (v : Value) : Except Fault Value :=
  match key with
  | [] => .ok v
  | .ident k :: rest => (nest rest v).map fun w => .object [(k, w)]
  | .index i :: rest =>
    if indexLimit ≤ i then .error .indexTooLarge
    else (nest rest v).map fun w => .array (List.replicate i.toNat .null ++ [w])

/-- The way that a key spells; a text that is no flat key is one step. -/
def ofText (text : String) : Except Fault Key :=
  match read text with
  | .ok key => .ok key
  | .error (.malformed _) => .ok [.ident text]
  | .error (.indexTooLong digits) => .error (.indexTooLong digits)

/-- Merges the expanded entries into a document. -/
def expandEntries (done : Value) : Entries Value → Except Fault Value
  | [] => .ok done
  | (k, v) :: rest =>
    match ofText k with
    | .error e => .error e
    | .ok key =>
      match nest key v with
      | .error e => .error e
      | .ok w => expandEntries (done.merge w) rest

mutual

/-- Expands an object, or each object that is an element of an array. -/
def expand : Value → Except Fault Value
  | .object [] => .ok (.object [])
  | .object entries => expandEntries .null entries
  | .array items => (expandItems items).map .array
  | v => .ok v

def expandItems : List Value → Except Fault (List Value)
  | [] => .ok []
  | v :: vs =>
    match expand v with
    | .error e => .error e
    | .ok w => (expandItems vs).map (w :: ·)

end

end Reshape.Key
