import Reshape.Proofs.Key.RoundTrip
import Reshape.Proofs.Value.Place

namespace Reshape.Key

mutual

/-- The nodes of a document in depth-first order, each with its key and its record. -/
def nodes (key : Key) : Value → List (Key × Value)
  | .array items => (key, .array []) :: nodesOfItems key 0 items
  | .object entries => (key, .object []) :: nodesOfEntries key entries
  | v => [(key, v)]

def nodesOfItems (key : Key) (index : Nat) : List Value → List (Key × Value)
  | [] => []
  | v :: vs => nodes (key ++ [.index index]) v ++ nodesOfItems key (index + 1) vs

def nodesOfEntries (key : Key) : List (String × Value) → List (Key × Value)
  | [] => []
  | (k, v) :: rest => nodes (key ++ [.ident k]) v ++ nodesOfEntries key rest

end

/-- A node of a child as a node of the document around it. -/
def under (s : Segment) : Key × Value → Key × Value :=
  Prod.map (s :: ·) id

/-- A node as one of the child it lies in, if the first step leads there. -/
def behind? (s : Segment) : Key × Value → Option (Key × Value)
  | ([], _) => none
  | (t :: key, v) => if t = s then some (key, v) else none

/-- The nodes that lie in one child, as nodes of this child. -/
def below (s : Segment) (nodes : List (Key × Value)) : List (Key × Value) :=
  nodes.filterMap (behind? s)

/-- What is recorded for a part of a document. -/
def record : Value → Value
  | .array _ => .array []
  | .object _ => .object []
  | v => v

theorem isDocument_record {v : Value} (hv : v.IsDocument) : (record v).IsDocument := by
  have hsame := hv
  cases hv with
  | array => exact .array [] nofun
  | object => exact .object [] List.nodup_nil nofun
  | _ => exact hsame

section Below

theorem behind?_under (s t : Segment) (node : Key × Value) :
    behind? s (under t node) = if t = s then some node else none :=
  rfl

theorem below_append (s : Segment) (nodes others : List (Key × Value)) :
    below s (nodes ++ others) = below s nodes ++ below s others :=
  List.filterMap_append

theorem below_cons_root (s : Segment) (v : Value) (nodes : List (Key × Value)) :
    below s (([], v) :: nodes) = below s nodes :=
  rfl

theorem below_map_under (s t : Segment) (nodes : List (Key × Value)) :
    below s (nodes.map (under t)) = if t = s then nodes else [] := by
  induction nodes with
  | nil => simp [below]
  | cons node nodes ih =>
      rw [below] at ih
      rw [List.map_cons, below, List.filterMap_cons, behind?_under, ih]
      by_cases hts : t = s
      · simp [hts]
      · simp [hts]

theorem mem_below_iff {s : Segment} {nodes : List (Key × Value)} {key : Key} {v : Value} :
    (key, v) ∈ below s nodes ↔ (s :: key, v) ∈ nodes := by
  rw [below, List.mem_filterMap]
  constructor
  · rintro ⟨⟨_ | ⟨t, key'⟩, v'⟩, hmem, hbehind⟩
    · cases hbehind
    · rw [behind?] at hbehind
      split at hbehind
      · rename_i hts
        cases hbehind
        rwa [hts] at hmem
      · cases hbehind
  · intro hmem
    exact ⟨_, hmem, by simp [behind?]⟩

theorem below_eq_nil {s : Segment} {nodes : List (Key × Value)}
    (h : ∀ node ∈ nodes, ∀ key, node.1 ≠ s :: key) : below s nodes = [] := by
  rw [List.eq_nil_iff_forall_not_mem]
  rintro ⟨key, v⟩ hmem
  exact h _ (mem_below_iff.mp hmem) key rfl

theorem count_cons_keys (s : Segment) (key : Key) (nodes : List (Key × Value)) :
    (nodes.map Prod.fst).count (s :: key) = ((below s nodes).map Prod.fst).count key := by
  induction nodes with
  | nil => rfl
  | cons node nodes ih =>
      obtain ⟨_ | ⟨t, key'⟩, v⟩ := node
      · rw [below_cons_root, ← ih]
        simp
      · have hbelow : below s ((t :: key', v) :: nodes) =
            below s (([(key', v)] : List (Key × Value)).map (under t)) ++ below s nodes :=
          below_append s [(t :: key', v)] nodes
        rw [hbelow, below_map_under, List.map_cons, List.count_cons, ih]
        by_cases hts : t = s
        · simp [hts, List.count_cons, Nat.add_comm]
        · simp [hts]

end Below

section Nodes

mutual

theorem nodes_append (key more : Key) : (v : Value) →
    nodes (key ++ more) v = (nodes more v).map (Prod.map (key ++ ·) id)
  | .null | .bool _ | .number _ | .string _ | .bare _ => by simp [nodes]
  | .array items => by
      rw [nodes, nodes, List.map_cons, nodesOfItems_append key more 0 items]
      rfl
  | .object entries => by
      rw [nodes, nodes, List.map_cons, nodesOfEntries_append key more entries]
      rfl

theorem nodesOfItems_append (key more : Key) (index : Nat) : (items : List Value) →
    nodesOfItems (key ++ more) index items =
      (nodesOfItems more index items).map (Prod.map (key ++ ·) id)
  | [] => by simp [nodesOfItems]
  | v :: vs => by
      rw [nodesOfItems, nodesOfItems, List.append_assoc, nodes_append key _ v,
        nodesOfItems_append key more (index + 1) vs, List.map_append]

theorem nodesOfEntries_append (key more : Key) : (entries : List (String × Value)) →
    nodesOfEntries (key ++ more) entries =
      (nodesOfEntries more entries).map (Prod.map (key ++ ·) id)
  | [] => by simp [nodesOfEntries]
  | (k, v) :: rest => by
      rw [nodesOfEntries, nodesOfEntries, List.append_assoc, nodes_append key _ v,
        nodesOfEntries_append key more rest, List.map_append]

end

theorem nodes_singleton (s : Segment) (v : Value) : nodes [s] v = (nodes [] v).map (under s) :=
  nodes_append [s] [] v

theorem nodesOfItems_cons (index : Nat) (v : Value) (vs : List Value) :
    nodesOfItems [] index (v :: vs) =
      (nodes [] v).map (under (.index index)) ++ nodesOfItems [] (index + 1) vs := by
  rw [nodesOfItems, List.nil_append, nodes_singleton]

theorem nodesOfEntries_cons (k : String) (v : Value) (rest : List (String × Value)) :
    nodesOfEntries [] ((k, v) :: rest) =
      (nodes [] v).map (under (.ident k)) ++ nodesOfEntries [] rest := by
  rw [nodesOfEntries, List.nil_append, nodes_singleton]

theorem exists_of_mem_nodesOfItems {index : Nat} {items : List Value} {node : Key × Value}
    (h : node ∈ nodesOfItems [] index items) :
    ∃ i : Nat, index ≤ i ∧ ∃ key, node.1 = .index i :: key := by
  induction items generalizing index with
  | nil => simp [nodesOfItems] at h
  | cons v vs ih =>
      rw [nodesOfItems_cons, List.mem_append, List.mem_map] at h
      rcases h with ⟨node', -, rfl⟩ | h
      · exact ⟨index, Nat.le_refl _, node'.1, rfl⟩
      · obtain ⟨i, hi, hkey⟩ := ih h
        exact ⟨i, by omega, hkey⟩

theorem exists_of_mem_nodesOfEntries {entries : Entries Value} {node : Key × Value}
    (h : node ∈ nodesOfEntries [] entries) :
    ∃ k ∈ Entries.keys entries, ∃ key, node.1 = .ident k :: key := by
  induction entries with
  | nil => simp [nodesOfEntries] at h
  | cons e rest ih =>
      rw [nodesOfEntries_cons, List.mem_append, List.mem_map] at h
      rw [Entries.keys_cons]
      rcases h with ⟨node', -, rfl⟩ | h
      · exact ⟨e.1, List.mem_cons_self, node'.1, rfl⟩
      · obtain ⟨k, hk, hkey⟩ := ih h
        exact ⟨k, List.mem_cons_of_mem _ hk, hkey⟩

theorem below_nodesOfItems (index i : Nat) (items : List Value) :
    below (.index (index + i : Nat)) (nodesOfItems [] index items) =
      (items[i]?.map (nodes [])).getD [] := by
  induction items generalizing index i with
  | nil => simp [nodesOfItems, below]
  | cons v vs ih =>
      rw [nodesOfItems_cons, below_append, below_map_under]
      cases i with
      | zero =>
          have hnone : below (.index index) (nodesOfItems [] (index + 1) vs) = [] := by
            refine below_eq_nil fun node hnode key heq => ?_
            obtain ⟨j, hj, key', hkey⟩ := exists_of_mem_nodesOfItems hnode
            rw [heq] at hkey
            simp only [List.cons.injEq, Segment.index.injEq] at hkey
            omega
          simp [hnone]
      | succ i =>
          have hne : (Segment.index (index : Int)) ≠ .index (index + (i + 1) : Nat) := by
            simp only [ne_eq, Segment.index.injEq]
            omega
          have hshift : index + (i + 1) = index + 1 + i := by omega
          rw [if_neg hne, hshift, ih]
          simp

theorem below_nodesOfEntries {entries : Entries Value} (hkeys : (Entries.keys entries).Nodup)
    (k : String) :
    below (.ident k) (nodesOfEntries [] entries) =
      ((Entries.find? entries k).map (nodes [])).getD [] := by
  induction entries with
  | nil => rfl
  | cons e rest ih =>
      obtain ⟨hnotMem, hrest⟩ := List.nodup_cons.mp hkeys
      rw [nodesOfEntries_cons, below_append, below_map_under, ih hrest, Entries.find?]
      by_cases hk : e.1 = k
      · have hnone : Entries.find? rest k = none :=
          Entries.find?_eq_none_iff.mpr (hk ▸ hnotMem)
        simp [hk, hnone]
      · simp [hk]

theorem below_nodes {v : Value} (hv : v.IsDocument) (s : Segment) :
    below s (nodes [] v) = ((v.child? s).map (nodes [])).getD [] := by
  cases hv with
  | null | bool | number | string => rfl
  | array items =>
      rw [nodes, below_cons_root]
      have hother : (∀ i : Nat, s ≠ .index i) → below s (nodesOfItems [] 0 items) = [] := by
        intro hs
        refine below_eq_nil fun node hnode key heq => ?_
        obtain ⟨i, -, key', hkey⟩ := exists_of_mem_nodesOfItems hnode
        exact hs i (List.cons.inj (heq.symm.trans hkey)).1
      cases s with
      | ident k => exact hother fun i hi => by cases hi
      | index i =>
          by_cases hi : 0 ≤ i
          · obtain ⟨n, rfl⟩ := Int.eq_ofNat_of_zero_le hi
            have hn := below_nodesOfItems 0 n items
            rw [Nat.zero_add] at hn
            rw [hn, Value.child?_array]
          · rw [hother]
            · simp [Value.child?, hi]
            · rintro n heq
              cases heq
              omega
  | object entries hkeys =>
      rw [nodes, below_cons_root]
      cases s with
      | ident k => exact below_nodesOfEntries hkeys k
      | index i =>
          refine below_eq_nil fun node hnode key heq => ?_
          obtain ⟨k, -, key', hkey⟩ := exists_of_mem_nodesOfEntries hnode
          cases heq.symm.trans hkey

theorem root_mem_nodes_iff {v w : Value} : ([], w) ∈ nodes [] v ↔ w = record v := by
  cases v with
  | null | bool | number | string | bare => simp [nodes, record]
  | array items =>
      rw [nodes, List.mem_cons]
      refine ⟨?_, fun h => .inl (by rw [h]; rfl)⟩
      rintro (h | h)
      · cases h
        rfl
      · obtain ⟨i, -, key, hkey⟩ := exists_of_mem_nodesOfItems h
        cases hkey
  | object entries =>
      rw [nodes, List.mem_cons]
      refine ⟨?_, fun h => .inl (by rw [h]; rfl)⟩
      rintro (h | h)
      · cases h
        rfl
      · obtain ⟨k, -, key, hkey⟩ := exists_of_mem_nodesOfEntries h
        cases hkey

theorem nodes_ne_nil (v : Value) : nodes [] v ≠ [] :=
  List.ne_nil_of_mem (root_mem_nodes_iff.mpr rfl)

/-- The nodes listed are the parts of the document, each with its record. -/
theorem mem_nodes_iff {v : Value} (hv : v.IsDocument) {key : Key} {r : Value} :
    (key, r) ∈ nodes [] v ↔ ∃ w, v.at? key = some w ∧ r = record w := by
  induction key generalizing v with
  | nil =>
      rw [root_mem_nodes_iff]
      simp [Value.at?]
  | cons s key ih =>
      rw [← mem_below_iff, below_nodes hv, Value.at?_cons]
      cases hchild : v.child? s with
      | none => simp
      | some u => exact ih (hv.child? hchild)

theorem count_root_nodes (v : Value) : ((nodes [] v).map Prod.fst).count [] = 1 := by
  have hrest : ∀ nodes : List (Key × Value), (∀ node ∈ nodes, node.1 ≠ []) →
      (nodes.map Prod.fst).count [] = 0 := by
    intro nodes hnodes
    rw [List.count_eq_zero, List.mem_map]
    rintro ⟨node, hmem, hkey⟩
    exact hnodes node hmem hkey
  cases v with
  | null | bool | number | string | bare => rfl
  | array items =>
      rw [nodes, List.map_cons, List.count_cons_self, hrest]
      intro node hnode hkey
      obtain ⟨i, -, key, heq⟩ := exists_of_mem_nodesOfItems hnode
      cases hkey.symm.trans heq
  | object entries =>
      rw [nodes, List.map_cons, List.count_cons_self, hrest]
      intro node hnode hkey
      obtain ⟨k, -, key, heq⟩ := exists_of_mem_nodesOfEntries hnode
      cases hkey.symm.trans heq

theorem count_nodes_le_one {v : Value} (hv : v.IsDocument) (key : Key) :
    ((nodes [] v).map Prod.fst).count key ≤ 1 := by
  induction key generalizing v with
  | nil => exact Nat.le_of_eq (count_root_nodes v)
  | cons s key ih =>
      rw [count_cons_keys, below_nodes hv]
      cases hchild : v.child? s with
      | none => simp
      | some u => exact ih (hv.child? hchild)

theorem nodup_nodes {v : Value} (hv : v.IsDocument) : ((nodes [] v).map Prod.fst).Nodup :=
  List.nodup_iff_count_le_one.mpr (count_nodes_le_one hv)

theorem countsForward_of_at? {v w : Value} {key : Key} (h : v.at? key = some w) :
    CountsForward key := by
  induction key generalizing v with
  | nil => simp [CountsForward]
  | cons s key ih =>
      obtain ⟨u, hu, hw⟩ := Option.bind_eq_some_iff.mp h
      intro i hi
      rcases List.mem_cons.mp hi with hs | hi
      · rcases Value.exists_of_child?_eq_some hu with ⟨_, n, -, hn, -⟩ | ⟨_, _, -, hk, -⟩
        · cases hs.trans hn
          omega
        · cases hs.trans hk
      · exact ih hw i hi

end Nodes

end Reshape.Key
