import Reshape.Proofs.Value.Sort
import Reshape.Value.Walk

namespace Reshape.Value

section Levels

variable {bound : Option Nat} {depth : Nat}

theorem map_sub_of_lt (h : bound.all (depth < ·) = true) :
    bound.map (· - depth) = (bound.map (· - (depth + 1))).map (· + 1) := by
  cases bound with
  | none => rfl
  | some d =>
      have hlt : depth < d := by simpa using h
      simp only [Option.map_some, Option.some.injEq]
      omega

theorem map_sub_of_not_lt (h : ¬ bound.all (depth < ·) = true) :
    bound.map (· - depth) = some 0 := by
  cases bound with
  | none => exact absurd rfl h
  | some d =>
      have hle : d ≤ depth := by simpa using h
      simp only [Option.map_some, Option.some.injEq]
      omega

theorem map_add_sub (bound : Option Nat) (depth n : Nat) :
    (bound.map (· + n)).map (· - (depth + n)) = bound.map (· - depth) := by
  rw [Option.map_map]
  congr 1
  funext d
  exact Nat.add_sub_add_right d n depth

theorem map_sub_zero (bound : Option Nat) : bound.map (· - 0) = bound :=
  Option.map_id'

theorem all_le_eq_all_lt (maxDepth : Option Nat) (depth : Nat) :
    maxDepth.all (depth ≤ ·) = (maxDepth.map (· + 1)).all (depth < ·) := by
  cases maxDepth with
  | none => rfl
  | some d => simp only [Option.map_some, Option.all_some, Nat.lt_add_one_iff]

end Levels

section Walk

variable {m : Type → Type} [Monad m] {onKey : String → m String} {onValue : Value → m Value}

theorem walk_zero (v : Value) : walk onKey onValue (some 0) v = onValue v := by
  cases v <;> rfl

theorem walk_array_succ (levels : Option Nat) (items : List Value) :
    walk onKey onValue (levels.map (· + 1)) (array items) =
      walkItems onKey onValue levels items >>= fun vs => onValue (array vs) := by
  cases levels <;> rfl

theorem walk_object_succ (levels : Option Nat) (entries : Entries Value) :
    walk onKey onValue (levels.map (· + 1)) (object entries) =
      walkEntries onKey onValue levels entries >>= fun pairs =>
        onValue (object (Entries.ofList pairs)) := by
  cases levels <;> rfl

mutual

/-- A walk from some depth on. The members of a container are visited unless it is deeper than
the walk may go. -/
def walkFrom (onKey : String → m String) (onValue : Value → m Value) (maxDepth : Option Nat)
    (depth : Nat) : Value → m Value
  | array items =>
    if maxDepth.all (depth ≤ ·) then do
      onValue (array (← walkItemsFrom onKey onValue maxDepth (depth + 1) items))
    else onValue (array items)
  | object entries =>
    if maxDepth.all (depth ≤ ·) then do
      let pairs ← walkEntriesFrom onKey onValue maxDepth (depth + 1) entries
      onValue (object (Entries.ofList pairs))
    else onValue (object entries)
  | v => onValue v

def walkItemsFrom (onKey : String → m String) (onValue : Value → m Value)
    (maxDepth : Option Nat) (depth : Nat) : List Value → m (List Value)
  | [] => pure []
  | v :: vs => do
    let w ← walkFrom onKey onValue maxDepth depth v
    return w :: (← walkItemsFrom onKey onValue maxDepth depth vs)

def walkEntriesFrom (onKey : String → m String) (onValue : Value → m Value)
    (maxDepth : Option Nat) (depth : Nat) :
    List (String × Value) → m (List (String × Value))
  | [] => pure []
  | (k, v) :: rest => do
    let l ← onKey k
    let w ← walkFrom onKey onValue maxDepth depth v
    return (l, w) :: (← walkEntriesFrom onKey onValue maxDepth depth rest)

end

mutual

/-- A walk may go into one level more than the greatest depth says. -/
theorem walkFrom_eq (maxDepth : Option Nat) (depth : Nat) : (v : Value) →
    walkFrom onKey onValue maxDepth depth v =
      walk onKey onValue ((maxDepth.map (· + 1)).map (· - depth)) v
  | .array items => by
      rw [walkFrom, all_le_eq_all_lt]
      split
      · rename_i hlt
        rw [map_sub_of_lt hlt, walk_array_succ, walkItemsFrom_eq]
      · rename_i hlt
        rw [map_sub_of_not_lt hlt, walk_zero]
  | .object entries => by
      rw [walkFrom, all_le_eq_all_lt]
      split
      · rename_i hlt
        rw [map_sub_of_lt hlt, walk_object_succ, walkEntriesFrom_eq]
      · rename_i hlt
        rw [map_sub_of_not_lt hlt, walk_zero]
  | .null | .bool _ | .number _ | .string _ | .bare _ => rfl

theorem walkItemsFrom_eq (maxDepth : Option Nat) (depth : Nat) : (items : List Value) →
    walkItemsFrom onKey onValue maxDepth depth items =
      walkItems onKey onValue ((maxDepth.map (· + 1)).map (· - depth)) items
  | [] => rfl
  | v :: vs => by
      rw [walkItemsFrom, walkItems, walkFrom_eq maxDepth depth v,
        walkItemsFrom_eq maxDepth depth vs]

theorem walkEntriesFrom_eq (maxDepth : Option Nat) (depth : Nat) :
    (entries : List (String × Value)) →
    walkEntriesFrom onKey onValue maxDepth depth entries =
      walkEntries onKey onValue ((maxDepth.map (· + 1)).map (· - depth)) entries
  | [] => rfl
  | (k, v) :: rest => by
      rw [walkEntriesFrom, walkEntries, walkFrom_eq maxDepth depth v,
        walkEntriesFrom_eq maxDepth depth rest]

end

theorem walkFrom_root (maxDepth : Option Nat) (v : Value) :
    walkFrom onKey onValue maxDepth 0 v = walk onKey onValue (maxDepth.map (· + 1)) v := by
  rw [walkFrom_eq, map_sub_zero]

theorem walkFrom_add (maxDepth : Option Nat) (depth n : Nat) (v : Value) :
    walkFrom onKey onValue (maxDepth.map (· + n)) (depth + n) v =
      walkFrom onKey onValue maxDepth depth v := by
  have hcomm : (maxDepth.map (· + n)).map (· + 1) = (maxDepth.map (· + 1)).map (· + n) := by
    cases maxDepth with
    | none => rfl
    | some d => exact congrArg some (Nat.add_right_comm d n 1)
  rw [walkFrom_eq, walkFrom_eq, hcomm, map_add_sub]

end Walk

section Sorts

variable {order : SortOrder}

mutual

/-- Sorting from some depth on. The members of a container are sorted too if it is less deep than
sorting may go. -/
def sortFrom (order : SortOrder) (maxDepth : Option Nat) (depth : Nat) :
    Value → Except Fault Value
  | array items =>
    if maxDepth.all (depth < ·) then do
      let sorted ← sortEachFrom order maxDepth (depth + 1) items
      (order.sortItems sorted).map array
    else (order.sortItems items).map array
  | object entries =>
    if maxDepth.all (depth < ·) then do
      let sorted ← sortMembersFrom order maxDepth (depth + 1) entries
      return object (order.sortEntries sorted)
    else .ok (object (order.sortEntries entries))
  | v => .ok v

def sortEachFrom (order : SortOrder) (maxDepth : Option Nat) (depth : Nat) :
    List Value → Except Fault (List Value)
  | [] => .ok []
  | v :: vs => do
    let w ← sortFrom order maxDepth depth v
    (sortEachFrom order maxDepth depth vs).map (w :: ·)

def sortMembersFrom (order : SortOrder) (maxDepth : Option Nat) (depth : Nat) :
    List (String × Value) → Except Fault (List (String × Value))
  | [] => .ok []
  | (k, v) :: rest => do
    let w ← sortFrom order maxDepth depth v
    (sortMembersFrom order maxDepth depth rest).map ((k, w) :: ·)

end

mutual

theorem sortFrom_eq (maxDepth : Option Nat) (depth : Nat) : (v : Value) →
    sortFrom order maxDepth depth v = sort order (maxDepth.map (· - depth)) v
  | .array items => by
      rw [sortFrom]
      split
      · rename_i hlt
        rw [map_sub_of_lt hlt, sort_array_succ, sortEachFrom_eq]
        cases sortEach order (maxDepth.map (· - (depth + 1))) items <;> rfl
      · rename_i hlt
        rw [map_sub_of_not_lt hlt, sort]
  | .object entries => by
      rw [sortFrom]
      split
      · rename_i hlt
        rw [map_sub_of_lt hlt, sort_object_succ, sortMembersFrom_eq]
        cases sortMembers order (maxDepth.map (· - (depth + 1))) entries <;> rfl
      · rename_i hlt
        rw [map_sub_of_not_lt hlt, sort]
  | .null | .bool _ | .number _ | .string _ | .bare _ => rfl

theorem sortEachFrom_eq (maxDepth : Option Nat) (depth : Nat) : (items : List Value) →
    sortEachFrom order maxDepth depth items =
      sortEach order (maxDepth.map (· - depth)) items
  | [] => rfl
  | v :: vs => by
      rw [sortEachFrom, sortEach, sortFrom_eq maxDepth depth v, sortEachFrom_eq maxDepth depth vs]
      cases sort order (maxDepth.map (· - depth)) v <;> rfl

theorem sortMembersFrom_eq (maxDepth : Option Nat) (depth : Nat) :
    (entries : List (String × Value)) →
    sortMembersFrom order maxDepth depth entries =
      sortMembers order (maxDepth.map (· - depth)) entries
  | [] => rfl
  | (k, v) :: rest => by
      rw [sortMembersFrom, sortMembers, sortFrom_eq maxDepth depth v,
        sortMembersFrom_eq maxDepth depth rest]
      cases sort order (maxDepth.map (· - depth)) v <;> rfl

end

theorem sortFrom_root (maxDepth : Option Nat) (v : Value) :
    sortFrom order maxDepth 0 v = sort order maxDepth v := by
  rw [sortFrom_eq, map_sub_zero]

theorem sortFrom_add (maxDepth : Option Nat) (depth n : Nat) (v : Value) :
    sortFrom order (maxDepth.map (· + n)) (depth + n) v = sortFrom order maxDepth depth v := by
  rw [sortFrom_eq, sortFrom_eq, map_add_sub]

end Sorts

end Reshape.Value
