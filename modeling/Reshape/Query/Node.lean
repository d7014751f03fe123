import Reshape.Key.Basic
import Reshape.Value.Basic

namespace Reshape.Query

structure Node where
  value : Value
  /-- The way from the root; none for a computed value. -/
  location : Option Key
  /-- The nodes above, the nearest first. -/
  ancestors : List (Value × Option Key)

namespace Node

def ofRoot (v : Value) : Node :=
  ⟨v, some [], []⟩

/-- A value that is not part of the document. -/
def computed (v : Value) : Node :=
  ⟨v, none, []⟩

/-- A node one step below. -/
def below (m : Node) (segment : Key.Segment) (v : Value) : Node :=
  ⟨v, m.location.map (· ++ [segment]), (m.value, m.location) :: m.ancestors⟩

/-- The topmost node. -/
def root (m : Node) : Node :=
  match m.ancestors.getLast? with
  | some (v, _) => ofRoot v
  | none => ofRoot m.value

def parent? (m : Node) : Option Node :=
  match m.ancestors with
  | [] => none
  | (v, location) :: rest => some ⟨v, location, rest⟩

def size? (m : Node) : Option Node :=
  match m.value with
  | .string s => some (computed (.bare (.integer s.length)))
  | .array items => some (computed (.bare (.integer items.length)))
  | .object entries => some (computed (.bare (.integer entries.length)))
  | _ => none

def keys (m : Node) : List Node :=
  match m.value with
  | .object entries => entries.map fun e => computed (.string e.1)
  | _ => []

def element (m : Node) (index : Nat) (v : Value) : Node :=
  m.below (.index index) v

def elements (m : Node) (items : List Value) : List Node :=
  items.zipIdx.map fun (v, index) => m.element index v

def entry (m : Node) (e : String × Value) : Node :=
  m.below (.ident e.1) e.2

def children (m : Node) : List Node :=
  match m.value with
  | .array items => m.elements items
  | .object entries => entries.map m.entry
  | _ => []

/-- The fields that are there, in the order of the names. -/
def fields (m : Node) (names : List String) : List Node :=
  match m.value with
  | .object entries =>
    names.filterMap fun name => (Entries.find? entries name).map (m.below (.ident name))
  | _ => []

/-- The elements at indices, which are kept as they are written. -/
def indices (m : Node) (indices : List Int) : List Node :=
  match m.value with
  | .array items =>
    indices.filterMap fun index =>
      ((Key.position? items.length index).bind (items[·]?)).map (m.below (.index index))
  | _ => []

/-- An object as the array of its members. -/
def listed (m : Node) : Node :=
  match m.value with
  | .object entries => { m with value := .array (entries.map Prod.snd) }
  | _ => m

mutual

/-- A node and all nodes below it in depth-first order. If told so, objects count as
the arrays of their members. -/
def nodes (asArrays : Bool) (location : Option Key) (ancestors : List (Value × Option Key)) :
    Value → List Node
  | .array items =>
    ⟨.array items, location, ancestors⟩ ::
      nodesOfItems asArrays location ((.array items, location) :: ancestors) 0 items
  | .object entries =>
    let v := if asArrays then Value.array (entries.map Prod.snd) else .object entries
    ⟨v, location, ancestors⟩ ::
      nodesOfEntries asArrays location ((v, location) :: ancestors) 0 entries
  | v => [⟨v, location, ancestors⟩]

def nodesOfItems (asArrays : Bool) (location : Option Key)
    (ancestors : List (Value × Option Key)) (index : Nat) : List Value → List Node
  | [] => []
  | v :: vs =>
    nodes asArrays (location.map (· ++ [.index index])) ancestors v ++
      nodesOfItems asArrays location ancestors (index + 1) vs

def nodesOfEntries (asArrays : Bool) (location : Option Key)
    (ancestors : List (Value × Option Key)) (index : Nat) : List (String × Value) → List Node
  | [] => []
  | (key, v) :: rest =>
    let segment := if asArrays then Key.Segment.index index else .ident key
    nodes asArrays (location.map (· ++ [segment])) ancestors v ++
      nodesOfEntries asArrays location ancestors (index + 1) rest

end

/-- A match with all nodes below it. -/
def withDescendants (m : Node) (asArrays : Bool) : List Node :=
  nodes asArrays m.location m.ancestors m.value

end Node

end Reshape.Query
