import Reshape.Sorting
import Reshape.Text.Case
import Reshape.Value.Order

namespace Reshape

inductive SortOrder where
  | ascending
  | descending
deriving DecidableEq, Repr

namespace SortOrder

def text : SortOrder → String
  | ascending => "asc"
  | descending => "desc"

/-- Reads an order, in capitals or not. -/
def read? (text : String) : Option SortOrder :=
  match Text.lower text with
  | "asc" => some ascending
  | "desc" => some descending
  | _ => none

/-- Sorts elements. Those that compare as equal keep their order. -/
def sortItems (order : SortOrder) (items : List Value) : Except Fault (List Value) :=
  match order with
  | ascending => Sorting.sort Value.before items
  | descending => Sorting.sortDescending Value.before items

def sortEntries (order : SortOrder) (entries : Entries Value) : Entries Value :=
  match order with
  | ascending => Entries.sorted entries
  | descending => (Entries.sorted entries).reverse

end SortOrder

namespace Value

/-- The number of levels that are left one level further in, where none stands for no
bound. -/
def innerLevels (levels : Option Nat) : Option Nat :=
  levels.map (· - 1)

mutual

/-- Sorts a document and the given number of levels inside. -/
def sort (order : SortOrder) (levels : Option Nat) : Value → Except Fault Value
  | array items =>
    match levels with
    | some 0 => (order.sortItems items).map array
    | _ =>
      match sortEach order (innerLevels levels) items with
      | .error e => .error e
      | .ok items => (order.sortItems items).map array
  | object entries =>
    match levels with
    | some 0 => .ok (object (order.sortEntries entries))
    | _ =>
      match sortMembers order (innerLevels levels) entries with
      | .error e => .error e
      | .ok entries => .ok (object (order.sortEntries entries))
  | v => .ok v

def sortEach (order : SortOrder) (levels : Option Nat) :
    List Value → Except Fault (List Value)
  | [] => .ok []
  | v :: vs =>
    match sort order levels v with
    | .error e => .error e
    | .ok w => (sortEach order levels vs).map (w :: ·)

def sortMembers (order : SortOrder) (levels : Option Nat) :
    List (String × Value) → Except Fault (List (String × Value))
  | [] => .ok []
  | (k, v) :: rest =>
    match sort order levels v with
    | .error e => .error e
    | .ok w => (sortMembers order levels rest).map ((k, w) :: ·)

end

end Value

end Reshape
