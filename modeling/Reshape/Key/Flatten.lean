import Reshape.Json.Write
import Reshape.Key.Basic

/-!
Documents flattened to one entry for each node. The key of an entry is the way to the
node. A container is recorded as an empty container of its kind, so that the shape of
the document is kept. The indices of an array always are short enough to be written.
-/

namespace Reshape.Key

/-- A walk through a document: the way to the node that it is at, and the entries that
are recorded so far. -/
structure Recorder where
  stack : Key
  entries : Entries Value

namespace Recorder

def push (r : Recorder) (s : Segment) : Recorder :=
  { r with stack := r.stack ++ [s] }

def pop (r : Recorder) : Recorder :=
  { r with stack := r.stack.dropLast }

/-- Records a document for the node that the walk is at. -/
def write (r : Recorder) (v : Value) : Recorder :=
  { r with entries := Entries.insert r.entries r.stack.spelling v }

mutual

/-- Walks through a document depth first and records each of its nodes. -/
def visit (r : Recorder) : Value → Recorder
  | .array items => visitItems (r.write (.array [])) 0 items
  | .object entries => visitEntries (r.write (.object [])) entries
  | v => r.write v

def visitItems (r : Recorder) (index : Nat) : List Value → Recorder
  | [] => r
  | v :: vs => visitItems (visit (r.push (.index index)) v).pop (index + 1) vs

def visitEntries (r : Recorder) : List (String × Value) → Recorder
  | [] => r
  | (k, v) :: rest => visitEntries (visit (r.push (.ident k)) v).pop rest

end

end Recorder

/-- Flattens documents one after another. The walks through them share a stack. -/
structure Flattener where
  rootName : String
  stack : Key := []

/-- The flat entries of a document, and the flattener as it is left behind. -/
def Flattener.flatten (f : Flattener) (v : Value) : Entries Value × Flattener :=
  let r : Recorder := ((Recorder.push ⟨f.stack, []⟩ (.ident f.rootName)).visit v).pop
  (Entries.sorted r.entries, { f with stack := r.stack })

/-- The flat entries of a document whose root has the given name. -/
def flatten (v : Value) (rootName : String) : Entries Value :=
  (Flattener.flatten { rootName } v).1

/-- An entry as an assignment on a line of its own. -/
def assignment (entry : String × Value) : Except Fault String :=
  entry.2.json.map fun text => entry.1 ++ " = " ++ text ++ ";"

/-- A document as one assignment for each node. -/
def assignments (v : Value) (rootName : String) : Except Fault (List String) :=
  (flatten v rootName).mapM assignment

end Reshape.Key
