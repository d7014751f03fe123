import Reshape.Key.Order
import Reshape.Value.Basic

/-!
Edits of a document at some of its nodes. A replacement gives the new value of a
node, or nothing to take the node out; it may have effects of its own.

The nodes are replaced in descending order of their keys: what is inside comes first,
and in one array the highest index, so that taking out a node does not move another
that is still to come.
-/

namespace Reshape.Edit

variable {m : Type → Type} [Monad m]

/-- An entry set to a replacement, or left out. -/
def putEntry (entries : Entries Value) (key : String) : Option Value → Value
  | some v => .object (entries.insert key v)
  | none => .object (entries.erase key)

/-- An element set to a replacement, or left out. -/
def putElement (items : List Value) (i : Nat) : Option Value → Value
  | some v => .array (items.set i v)
  | none => .array (items.eraseIdx i)

/-- Replaces the node at the end of a way; all is left as it is if there is none. The
result is nothing if the root is taken out. -/
def one (replace : Value → m (Option Value)) : Key → Value → m (Option Value)
  | [], v => replace v
  | .ident key :: rest, .object entries =>
    match Entries.find? entries key with
    | none => pure (some (.object entries))
    | some v => do return some (putEntry entries key (← one replace rest v))
  | .index index :: rest, .array items =>
    match (Key.position? items.length index) with
    | none => pure (some (.array items))
    | some i => do return some (putElement items i (← one replace rest (items[i]?.getD .null)))
  | _ :: _, v => pure (some v)

/-- Each key once, the last one first. -/
def pending (locations : List Key) : List Key :=
  Sorting.arrange (fun key other => key.compare other != .lt) locations.eraseDups

/-- Replaces the nodes at keys one after the other. -/
def inOrder (replace : Value → m (Option Value)) : List Key → Value → m Value
  | [], v => pure v
  | key :: rest, v => do inOrder replace rest ((← one replace key v).getD .null)

/-- Replaces some nodes of a document. If the root is among them it alone is replaced.
A root that is taken out leaves null. -/
def all (replace : Value → m (Option Value)) (locations : List Key) (v : Value) : m Value :=
  inOrder replace (if locations.contains [] then [[]] else pending locations) v

end Reshape.Edit
