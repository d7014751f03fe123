import Reshape.Key.Flatten
import Reshape.Proofs.Key.Nodes

namespace Reshape.Key

section Walk

/-- What a recorder holds after some nodes. -/
def Recorder.writeAll (entries : Entries Value) (nodes : List (Key × Value)) : Entries Value :=
  nodes.foldl (fun entries node => Entries.insert entries node.1.spelling node.2) entries

namespace Recorder

theorem writeAll_append (entries : Entries Value) (nodes others : List (Key × Value)) :
    writeAll entries (nodes ++ others) = writeAll (writeAll entries nodes) others :=
  List.foldl_append

theorem push_mk (stack : Key) (s : Segment) (entries : Entries Value) :
    push ⟨stack, entries⟩ s = ⟨stack ++ [s], entries⟩ :=
  rfl

theorem pop_pushed (stack : Key) (s : Segment) (entries : Entries Value) :
    pop ⟨stack ++ [s], entries⟩ = ⟨stack, entries⟩ := by
  rw [pop, List.dropLast_concat]

mutual

/-- A walk through a document records its nodes and ends where it began. -/
theorem visit_eq (stack : Key) (entries : Entries Value) : (v : Value) →
    visit ⟨stack, entries⟩ v = ⟨stack, writeAll entries (nodes stack v)⟩
  | .null | .bool _ | .number _ | .string _ | .bare _ => by
      rw [visit, nodes]
      · rfl
      all_goals nofun
  | .array items => by
      rw [visit, nodes, write, visitItems_eq stack _ 0 items]
      rfl
  | .object es => by
      rw [visit, nodes, write, visitEntries_eq stack _ es]
      rfl

theorem visitItems_eq (stack : Key) (entries : Entries Value) (index : Nat) :
    (items : List Value) → visitItems ⟨stack, entries⟩ index items =
      ⟨stack, writeAll entries (nodesOfItems stack index items)⟩
  | [] => rfl
  | v :: vs => by
      rw [visitItems, push_mk, visit_eq _ entries v, pop_pushed,
        visitItems_eq stack _ (index + 1) vs, nodesOfItems, writeAll_append]

theorem visitEntries_eq (stack : Key) (entries : Entries Value) :
    (es : List (String × Value)) → visitEntries ⟨stack, entries⟩ es =
      ⟨stack, writeAll entries (nodesOfEntries stack es)⟩
  | [] => rfl
  | (k, v) :: rest => by
      rw [visitEntries, push_mk, visit_eq _ entries v, pop_pushed,
        visitEntries_eq stack _ rest, nodesOfEntries, writeAll_append]

end

end Recorder

theorem Flattener.flatten_eq (f : Flattener) (v : Value) :
    f.flatten v =
      (Entries.sorted (Recorder.writeAll [] (nodes (f.stack ++ [.ident f.rootName]) v)), f) := by
  rw [Flattener.flatten, Recorder.push_mk, Recorder.visit_eq, Recorder.pop_pushed]

theorem Flattener.flatten_of_empty {f : Flattener} (hstack : f.stack = []) (v : Value) :
    f.flatten v = (Key.flatten v f.rootName, f) := by
  rw [Key.flatten, flatten_eq, flatten_eq, hstack]

end Walk

section Entries

variable {v : Value} (hv : v.IsDocument) (rootName : String)

/-- The entry of a node below a root with the given name. -/
def entryOf (rootName : String) (node : Key × Value) : String × Value :=
  (spelling (.ident rootName :: node.1), node.2)

theorem writeAll_nodes (rootName : String) (v : Value) :
    Recorder.writeAll [] (nodes [.ident rootName] v) =
      Entries.ofList ((nodes [] v).map (entryOf rootName)) := by
  rw [nodes_singleton, Recorder.writeAll, Entries.ofList, List.foldl_map, List.foldl_map]
  rfl

include hv

theorem countsForward_of_mem_nodes {node : Key × Value} (h : node ∈ nodes [] v) :
    CountsForward node.1 := by
  obtain ⟨w, hw, -⟩ := (mem_nodes_iff hv).mp h
  exact countsForward_of_at? hw

/-- The key of an entry spells the way to its node. -/
theorem spells_entryOf {node : Key × Value} (h : node ∈ nodes [] v) :
    Spells (entryOf rootName node).1 (.ident rootName :: node.1) :=
  spells_spelling (List.cons_ne_nil _ _) ((countsForward_of_mem_nodes hv h).ident_cons rootName)

theorem nodup_keys_entryOf :
    (Entries.keys ((nodes [] v).map (entryOf rootName))).Nodup := by
  have hways : (nodes [] v).Pairwise fun node other => node.1 ≠ other.1 :=
    List.pairwise_map.mp (nodup_nodes hv)
  rw [Entries.keys, List.map_map]
  refine List.pairwise_map.mpr (hways.imp_of_mem fun {node other} hnode hother hne heq => hne ?_)
  have hsame : (entryOf rootName node).1 = (entryOf rootName other).1 := heq
  have hspells := spells_entryOf hv rootName hnode
  rw [hsame] at hspells
  exact (List.cons.inj ((spells_entryOf hv rootName hother).unique
    ((countsForward_of_mem_nodes hv hother).ident_cons rootName)
    ((countsForward_of_mem_nodes hv hnode).ident_cons rootName) hspells)).2.symm

theorem flatten_eq :
    flatten v rootName = Entries.sorted ((nodes [] v).map (entryOf rootName)) := by
  rw [flatten, Flattener.flatten_eq, List.nil_append, writeAll_nodes,
    Entries.ofList_eq_self (nodup_keys_entryOf hv rootName)]

theorem mem_flatten_iff {e : String × Value} :
    e ∈ flatten v rootName ↔
      ∃ way w, v.at? way = some w ∧ e = entryOf rootName (way, record w) := by
  rw [flatten_eq hv, (Entries.sorted_perm _).mem_iff, List.mem_map]
  constructor
  · rintro ⟨⟨way, r⟩, hnode, rfl⟩
    obtain ⟨w, hw, rfl⟩ := (mem_nodes_iff hv).mp hnode
    exact ⟨way, w, hw, rfl⟩
  · rintro ⟨way, w, hw, rfl⟩
    exact ⟨(way, record w), (mem_nodes_iff hv).mpr ⟨w, hw, rfl⟩, rfl⟩

theorem spells_entryOf_at? {way : Key} {w : Value} (hw : v.at? way = some w) :
    Spells (entryOf rootName (way, record w)).1 (.ident rootName :: way) :=
  spells_entryOf hv rootName ((mem_nodes_iff hv).mpr ⟨w, hw, rfl⟩)

end Entries

section Listing

/-- The entries are those of the nodes of a document: each node has exactly one, which holds its
record, and they stand in ascending order of their keys. -/
structure IsListing (rootName : String) (v : Value) (entries : Entries Value) : Prop where
  exists_node : ∀ e ∈ entries, ∃ way w, v.at? way = some w ∧
    Spells e.1 (.ident rootName :: way) ∧ e.2 = record w
  exists_entry : ∀ way w, v.at? way = some w → ∃ e ∈ entries, e.2 = record w ∧
    ∀ d ∈ entries, Spells d.1 (.ident rootName :: way) ↔ d = e
  ascending : (Entries.keys entries).Pairwise (· < ·)

theorem flatten_isListing {v : Value} (hv : v.IsDocument) (rootName : String) :
    IsListing rootName v (flatten v rootName) where
  exists_node := by
    intro e he
    obtain ⟨way, w, hw, rfl⟩ := (mem_flatten_iff hv rootName).mp he
    exact ⟨way, w, hw, spells_entryOf_at? hv rootName hw, rfl⟩
  exists_entry := by
    intro way w hw
    refine ⟨_, (mem_flatten_iff hv rootName).mpr ⟨way, w, hw, rfl⟩, rfl, fun d hd => ⟨?_, ?_⟩⟩
    · intro hspells
      obtain ⟨way', w', hw', rfl⟩ := (mem_flatten_iff hv rootName).mp hd
      obtain rfl := (List.cons.inj ((spells_entryOf_at? hv rootName hw').unique
        ((countsForward_of_at? hw').ident_cons rootName)
        ((countsForward_of_at? hw).ident_cons rootName) hspells)).2
      rw [Option.some.inj (hw'.symm.trans hw)]
    · rintro rfl
      exact spells_entryOf_at? hv rootName hw
  ascending := by
    rw [flatten_eq hv]
    exact List.pairwise_map.mpr (Entries.pairwise_sorted (nodup_keys_entryOf hv rootName))

/-- The outcomes of flattening documents one after another: the entries of each, and the
flattener as it is left behind. -/
def Flattener.flattenEach (f : Flattener) : List Value → List (Entries Value × Flattener)
  | [] => []
  | v :: vs => f.flatten v :: (f.flatten v).2.flattenEach vs

theorem Flattener.flattenEach_eq {f : Flattener} (hstack : f.stack = []) (vs : List Value) :
    f.flattenEach vs = vs.map fun v => (Key.flatten v f.rootName, f) := by
  induction vs with
  | nil => rfl
  | cons v vs ih => rw [flattenEach, flatten_of_empty hstack, ih, List.map_cons]

/-- However many documents are flattened one after another, each gets exactly one entry for each
of its nodes, in ascending order, and leaves the stack empty. -/
theorem Flattener.flattenEach_isListing (rootName : String) {vs : List Value}
    (hvs : ∀ v ∈ vs, v.IsDocument) :
    List.Forall₂ (fun v outcome => IsListing rootName v outcome.1 ∧ outcome.2.stack = []) vs
      (Flattener.flattenEach { rootName } vs) := by
  rw [flattenEach_eq rfl, List.forall₂_map_right_iff, List.forall₂_same]
  intro v hv
  exact ⟨flatten_isListing (hvs v hv) rootName, rfl⟩

/-- An index beside a key that is a digit, and a key that reads like the way to another node. -/
def digitKeys : Value :=
  .object [("0", .array [.null]), ("0[0]", .bool true), ("", .object [])]

theorem Flattener.flattenEach_digitKeys :
    List.Forall₂ (fun v outcome => IsListing "a b" v outcome.1 ∧ outcome.2.stack = [])
      [digitKeys, .array [digitKeys]] (Flattener.flattenEach { rootName := "a b" }
        [digitKeys, .array [digitKeys]]) := by
  have hdigits : digitKeys.IsDocument := by
    refine .object _ (by decide) ?_
    simpa using ⟨.array _ (by simpa using .null), .bool true, .object [] List.nodup_nil nofun⟩
  have harray : (Value.array [digitKeys]).IsDocument :=
    .array _ (List.forall_mem_singleton.mpr hdigits)
  exact flattenEach_isListing "a b" (List.forall_mem_cons.mpr
    ⟨hdigits, List.forall_mem_singleton.mpr harray⟩)

example : Entries.keys (flatten digitKeys "a b") =
    ["[\"a b\"]", "[\"a b\"].0", "[\"a b\"].0[0]", "[\"a b\"][\"\"]", "[\"a b\"][\"0[0]\"]"] := by
  decide +kernel

end Listing

end Reshape.Key
