import Reshape.Value.Sort

namespace Reshape.Value

variable {m : Type → Type} [Monad m]

mutual

/-- Walks through a document and the given number of levels inside. The keys of an
object belong to the level of its members; of two keys that become alike the later one
wins. -/
def walk (onKey : String → m String) (onValue : Value → m Value) (levels : Option Nat) :
    Value → m Value
  | array items =>
    match levels with
    | some 0 => onValue (array items)
    | _ => do onValue (array (← walkItems onKey onValue (innerLevels levels) items))
  | object entries =>
    match levels with
    | some 0 => onValue (object entries)
    | _ => do
      let pairs ← walkEntries onKey onValue (innerLevels levels) entries
      onValue (object (Entries.ofList pairs))
  | v => onValue v

def walkItems (onKey : String → m String) (onValue : Value → m Value) (levels : Option Nat) :
    List Value → m (List Value)
  | [] => pure []
  | v :: vs => do
    let w ← walk onKey onValue levels v
    return w :: (← walkItems onKey onValue levels vs)

/-- An entry's key comes before its value. -/
def walkEntries (onKey : String → m String) (onValue : Value → m Value)
    (levels : Option Nat) : List (String × Value) → m (List (String × Value))
  | [] => pure []
  | (k, v) :: rest => do
    let l ← onKey k
    let w ← walk onKey onValue levels v
    return (l, w) :: (← walkEntries onKey onValue levels rest)

end

end Reshape.Value
