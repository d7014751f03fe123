import Reshape.Value.Merge

namespace Reshape.Value

/-- Takes away one level of nesting: the container around a single member, or else the
arrays inside an array. -/
def flatten : Value → Value
  | array [v] => v
  | array vs => array (vs.flatMap items)
  | object [(_, v)] => v
  | v => v

mutual

/-- Leaves out the nulls, empty arrays and empty objects inside, and what becomes empty
by that. -/
def withoutEmpty : Value → Value
  | array vs => array (withoutEmptyItems vs)
  | object entries => object (withoutEmptyEntries entries)
  | v => v

def withoutEmptyItems : List Value → List Value
  | [] => []
  | v :: vs =>
    let w := withoutEmpty v
    if w.isEmpty then withoutEmptyItems vs else w :: withoutEmptyItems vs

def withoutEmptyEntries : List (String × Value) → List (String × Value)
  | [] => []
  | (k, v) :: rest =>
    let w := withoutEmpty v
    if w.isEmpty then withoutEmptyEntries rest else (k, w) :: withoutEmptyEntries rest

end

/-- Merges the elements of an array into one document. -/
def mergeElements : Value → Value
  | array vs => mergeAll (array []) vs
  | v => v

/-- The keys of an object as an array, which is empty for anything else. -/
def keysArray : Value → Value
  | object entries => array (entries.map fun e => string e.1)
  | _ => array []

/-- The members of a container as an array, which is empty for anything else. -/
def membersArray : Value → Value
  | object entries => array (entries.map Prod.snd)
  | array vs => array vs
  | _ => array []

mutual

/-- Makes an object of every array, with the indices as keys. -/
def arraysToObjects : Value → Value
  | array vs => object (indexedEntries 0 vs)
  | object entries => object (arraysToObjectsIn entries)
  | v => v

def indexedEntries (index : Nat) : List Value → List (String × Value)
  | [] => []
  | v :: vs => (Nat.repr index, arraysToObjects v) :: indexedEntries (index + 1) vs

def arraysToObjectsIn : List (String × Value) → List (String × Value)
  | [] => []
  | (k, v) :: rest => (k, arraysToObjects v) :: arraysToObjectsIn rest

end

/-- Inserts before the element at an index, or at the end if there is none. -/
def insertElement (v : Value) (index : Nat) (w : Value) : Value :=
  match v with
  | array vs => array (vs.insertIdx (min index vs.length) w)
  | _ => v

/-- Writes an entry of an object. -/
def insertEntry (v : Value) (key : String) (w : Value) : Value :=
  match v with
  | object entries => object (Entries.insert entries key w)
  | _ => v

end Reshape.Value
