import Reshape.Query.Compare
import Reshape.Query.Node
import Reshape.Query.Slice

namespace Reshape.Query

/-- The results for all members of a list, one behind the other. -/
def collect {α β : Type} (f : α → Except Fault (List β)) : List α → Except Fault (List β)
  | [] => .ok []
  | x :: xs =>
    match f x with
    | .error e => .error e
    | .ok found => (collect f xs).map (found ++ ·)

/-- Whether some result is true. All are computed. -/
def anyHolds {α : Type} (f : α → Except Fault Bool) : List α → Except Fault Bool
  | [] => .ok false
  | x :: xs =>
    match f x with
    | .error e => .error e
    | .ok b => (anyHolds f xs).map (b || ·)

/-- A slice advances by zero. -/
def zeroStep : Fault :=
  .raised "ValueError" "slice step cannot be zero"

/-- The elements of an array that a slice takes. -/
def Node.slice (m : Node) (first last step : Option Int) : Except Fault (List Node) :=
  match m.value with
  | .array items =>
    if step = some 0 then .error zeroStep
    else
      .ok <| (slicePositions items.length first last (step.getD 1)).filterMap fun i =>
        items[i]?.map (m.element i)
  | _ => .ok []

/-- The members of an array or object for which a condition holds. -/
def Node.filter (m : Node) (holds : Value → Except Fault Bool) : Except Fault (List Node) :=
  match m.listed.value with
  | .array items =>
    collect (fun found : Node => (holds found.value).map fun b => if b then [found] else [])
      (m.listed.elements items)
  | _ => .ok []

/-- A filter makes arrays of the objects that it looks at. -/
def Path.isFilter : Path → Bool
  | .filter _ => true
  | _ => false

mutual

/-- What a path finds at a node. -/
def Path.find : Path → Node → Except Fault (List Node)
  | .root, m => .ok [m.root]
  | .here, m => .ok [m]
  | .parent, m => .ok m.parent?.toList
  | .size, m => .ok m.size?.toList
  | .keys, m => .ok m.keys
  | .fields names, m => .ok (m.fields names)
  | .children, m => .ok m.children
  | .indices indices, m => .ok (m.indices indices)
  | .slice first last step, m => m.slice first last step
  | .filter condition, m => m.filter fun v => condition.holds v
  | .child left right, m =>
    match left.find m with
    | .error e => .error e
    | .ok found => collect (fun n => right.find n) found
  | .descent left right, m =>
    match left.find m with
    | .error e => .error e
    | .ok found =>
      collect (fun n => right.find n)
        (found.flatMap fun n => n.withDescendants right.isFilter)
  | .union left right, m =>
    match left.find m with
    | .error e => .error e
    | .ok found => (right.find m).map (found ++ ·)

/-- Whether a condition holds of a value, which counts as the root. -/
def Condition.holds : Condition → Value → Except Fault Bool
  | .found path, v => (path.find (.ofRoot v)).map fun found => !found.isEmpty
  | .compared path comparison literal, v =>
    match path.find (.ofRoot v) with
    | .error e => .error e
    | .ok found => anyHolds (fun n => comparison.holds n.value literal) found
  | .both first second, v =>
    match first.holds v with
    | .error e => .error e
    | .ok b => (second.holds v).map (b && ·)

end

end Reshape.Query
