import Reshape.Sorting

namespace Reshape

variable {α : Type}

/-- Finite maps from names to values, in the order in which the names were first written. -/
abbrev Entries (α : Type) :=
  List (String × α)

namespace Entries

def keys (entries : Entries α) : List String :=
  entries.map Prod.fst

/-- The value of the first entry with the key. -/
def find? (entries : Entries α) (key : String) : Option α :=
  match entries with
  | [] => none
  | (k, v) :: rest => if k = key then some v else find? rest key

def contains (entries : Entries α) (key : String) : Bool :=
  entries.any fun e => e.1 == key

/-- Writes a value under a key: in place of the value there, or else behind all
entries. -/
def insert (entries : Entries α) (key : String) (value : α) : Entries α :=
  match entries with
  | [] => [(key, value)]
  | (k, v) :: rest => if k = key then (k, value) :: rest else (k, v) :: insert rest key value

def erase (entries : Entries α) (key : String) : Entries α :=
  match entries with
  | [] => []
  | (k, v) :: rest => if k = key then rest else (k, v) :: erase rest key

/-- The map written by a list of pairs, of which the later ones win. -/
def ofList (pairs : List (String × α)) : Entries α :=
  pairs.foldl (fun entries e => insert entries e.1 e.2) []

/-- The entries in ascending order of their keys. -/
def sorted (entries : Entries α) : Entries α :=
  Sorting.arrange (fun e f => !(f.1 < e.1 : Bool)) entries

theorem find?_insert (entries : Entries α) (key other : String) (value : α) :
    find? (insert entries key value) other =
      if other = key then some value else find? entries other := by
  induction entries with
  | nil =>
    by_cases h : other = key
    · simp [insert, find?, h]
    · simp [insert, find?, h, Ne.symm h]
  | cons e rest ih =>
    by_cases hk : e.1 = key <;> by_cases ho : e.1 = other <;>
      simp_all [insert, find?, eq_comm]

theorem find?_eq_none_iff {entries : Entries α} {key : String} :
    find? entries key = none ↔ key ∉ keys entries := by
  induction entries with
  | nil => simp [find?, keys]
  | cons e rest ih =>
    by_cases h : e.1 = key
    · simp [find?, keys, h]
    · simpa [find?, keys, h, Ne.symm h] using ih

theorem keys_insert_of_mem {entries : Entries α} {key : String} (value : α)
    (hkey : key ∈ keys entries) : keys (insert entries key value) = keys entries := by
  induction entries with
  | nil => simp [keys] at hkey
  | cons e rest ih =>
    by_cases h : e.1 = key
    · simp [insert, keys, h]
    · have hrest : key ∈ keys rest := by simpa [keys, Ne.symm h] using hkey
      simpa [insert, keys, h] using ih hrest

theorem keys_insert_of_notMem {entries : Entries α} {key : String} (value : α)
    (hkey : key ∉ keys entries) : keys (insert entries key value) = keys entries ++ [key] := by
  induction entries with
  | nil => simp [insert, keys]
  | cons e rest ih =>
    have h : ¬ e.1 = key := fun he => hkey (by simp [keys, he])
    have hrest : key ∉ keys rest := fun hm => hkey (List.mem_cons_of_mem _ hm)
    simpa [insert, keys, h] using ih hrest

end Entries

end Reshape
