import Reshape.Key.Expand
import Reshape.Proofs.Key.Nodes
import Reshape.Proofs.Value.Merge
import Reshape.Value.Equal

/-!
What the flat entries of a document expand to, in whatever order they come. The invariant
says what has been built at an index or under a key by what has been built from the entries
below it; `restores_build` follows by induction on the document.
-/

namespace Reshape.Key

/-- The document that holds only a value at the end of a way, however large its arrays are. -/
def nested (v : Value) : Key → Value
  | [] => v
  | .ident k :: rest => .object [(k, nested v rest)]
  | .index i :: rest => .array (List.replicate i.toNat .null ++ [nested v rest])

/-- What merging nodes into a document gives. -/
def build (done : Value) (nodes : List (Key × Value)) : Value :=
  nodes.foldl (fun done node => done.merge (nested node.2 node.1)) done

/-- A node of an array: the array itself or a node inside. -/
inductive IsArrayNode : Key × Value → Prop
  | root : IsArrayNode ([], .array [])
  | item (i : Nat) (key : Key) (v : Value) : IsArrayNode (.index i :: key, v)

/-- A node of an object: the object itself or a node inside. -/
inductive IsObjectNode : Key × Value → Prop
  | root : IsObjectNode ([], .object [])
  | entry (k : String) (key : Key) (v : Value) : IsObjectNode (.ident k :: key, v)

theorem build_cons (done : Value) (node : Key × Value) (nodes : List (Key × Value)) :
    build done (node :: nodes) = build (done.merge (nested node.2 node.1)) nodes :=
  rfl

theorem below_cons (s t : Segment) (key : Key) (v : Value) (nodes : List (Key × Value)) :
    below s ((t :: key, v) :: nodes) =
      if t = s then (key, v) :: below s nodes else below s nodes := by
  rw [below, List.filterMap_cons, behind?]
  by_cases hts : t = s <;> simp [below, hts]

section Arrays

theorem getD_padded (v : Value) (i j : Nat) :
    (List.replicate i Value.null ++ [v])[j]?.getD .null = if i = j then v else .null := by
  rw [List.getElem?_append, List.length_replicate]
  by_cases hlt : j < i
  · simp [hlt, Nat.ne_of_gt hlt]
  · by_cases heq : i = j
    · simp [heq]
    · have hpos : j - i ≠ 0 := by omega
      obtain ⟨n, hn⟩ := Nat.exists_eq_succ_of_ne_zero hpos
      simp [hlt, heq, hn]

/-- Nodes merged into an array: what is at an index is built from the nodes below it, and
the array is no longer than they need. -/
theorem build_array {nodes : List (Key × Value)} (hnodes : ∀ node ∈ nodes, IsArrayNode node)
    (xs : List Value) :
    ∃ ys, build (.array xs) nodes = .array ys ∧
      (∀ i : Nat, ys[i]?.getD .null = build (xs[i]?.getD .null) (below (.index i) nodes)) ∧
      ∀ m, ys.length ≤ m ↔
        xs.length ≤ m ∧ ∀ i : Nat, below (.index i) nodes ≠ [] → i < m := by
  induction nodes generalizing xs with
  | nil =>
      refine ⟨xs, rfl, fun i => rfl, fun m => ?_⟩
      simp [below]
  | cons node nodes ih =>
      have hrest : ∀ node ∈ nodes, IsArrayNode node :=
        fun node hnode => hnodes node (List.mem_cons_of_mem _ hnode)
      cases hnodes node List.mem_cons_self with
      | root =>
          have hself : Value.merge (.array xs) (.array []) = .array xs := by
            simp [Value.merge, Value.mergeItems.eq_def]
          rw [build_cons, nested, hself]
          exact ih hrest xs
      | item i key v =>
          have hstep : Value.merge (.array xs) (nested v (.index i :: key)) =
              .array (Value.mergeItems xs (List.replicate i .null ++ [nested v key])) := by
            rw [nested, Value.merge, Int.toNat_natCast]
          obtain ⟨ys, hys, hget, hlength⟩ :=
            ih hrest (Value.mergeItems xs (List.replicate i .null ++ [nested v key]))
          refine ⟨ys, by rw [build_cons, hstep, hys], fun j => ?_, fun m => ?_⟩
          · rw [hget, Value.getD_mergeItems, getD_padded, below_cons]
            by_cases hij : i = j
            · simp [hij, build_cons]
            · have hne : Segment.index i ≠ .index j := by
                simp only [ne_eq, Segment.index.injEq]
                omega
              rw [if_neg hij, if_neg hne, Value.merge_null]
          · rw [hlength, Value.length_mergeItems, List.length_append, List.length_replicate,
              List.length_singleton]
            constructor
            · rintro ⟨hmax, hbelow⟩
              refine ⟨by omega, fun j hj => ?_⟩
              rw [below_cons] at hj
              split at hj
              · rename_i hij
                simp only [Segment.index.injEq] at hij
                omega
              · exact hbelow j hj
            · rintro ⟨hxs, hbelow⟩
              have hi : i < m := hbelow i (by simp [below_cons])
              refine ⟨by omega, fun j hj => hbelow j ?_⟩
              rw [below_cons]
              split
              · exact List.cons_ne_nil _ _
              · exact hj

end Arrays

section Objects

theorem build_object {nodes : List (Key × Value)} (hnodes : ∀ node ∈ nodes, IsObjectNode node)
    {es : Entries Value} (hes : (Entries.keys es).Nodup) :
    ∃ fs, build (.object es) nodes = .object fs ∧ (Entries.keys fs).Nodup ∧
      ∀ k, Entries.find? fs k =
        if below (.ident k) nodes = [] then Entries.find? es k
        else some (build ((Entries.find? es k).getD .null) (below (.ident k) nodes)) := by
  induction nodes generalizing es with
  | nil => exact ⟨es, rfl, hes, fun k => rfl⟩
  | cons node nodes ih =>
      have hrest : ∀ node ∈ nodes, IsObjectNode node :=
        fun node hnode => hnodes node (List.mem_cons_of_mem _ hnode)
      cases hnodes node List.mem_cons_self with
      | root => exact ih hrest hes
      | entry l key v =>
          have hstep : Value.merge (.object es) (nested v (.ident l :: key)) =
              .object (Entries.insert es l
                (((Entries.find? es l).getD .null).merge (nested v key))) := by
            rw [nested, Value.merge, Value.mergeEntries_singleton]
          obtain ⟨fs, hfs, hnodup, hfind⟩ := ih hrest (Entries.nodup_keys_insert hes l
            (((Entries.find? es l).getD .null).merge (nested v key)))
          refine ⟨fs, by rw [build_cons, hstep, hfs], hnodup, fun k => ?_⟩
          rw [hfind, Entries.find?_insert, below_cons]
          by_cases hlk : l = k
          · by_cases hbelow : below (.ident k) nodes = [] <;> simp [hlk, hbelow, build]
          · simp [hlk, Ne.symm hlk]

end Objects

/-- A document that is another one, up to the order of entries. -/
def Restores (v w : Value) : Prop :=
  w.IsDocument ∧ w.equal v = true

/-- The nodes that are listed below a step restore what the step leads to. -/
inductive Covers : Option Value → List (Key × Value) → Prop
  | nothing : Covers none []
  | child {v : Value} {nodes : List (Key × Value)} (hne : nodes ≠ [])
      (hrestores : Restores v (build .null nodes)) : Covers (some v) nodes

theorem Covers.ne_nil_iff {child : Option Value} {nodes : List (Key × Value)}
    (h : Covers child nodes) : nodes ≠ [] ↔ child.isSome := by
  cases h with
  | nothing => simp
  | child hne => simp [hne]

theorem Covers.restores {v : Value} {nodes : List (Key × Value)} (h : Covers (some v) nodes) :
    Restores v (build .null nodes) := by
  cases h with
  | child _ hrestores => exact hrestores

theorem restores_array {items : List Value} {nodes : List (Key × Value)}
    (hnodes : ∀ node ∈ nodes, IsArrayNode node) (hne : nodes ≠ [])
    (hbelow : ∀ i : Nat, Covers items[i]? (below (.index i) nodes)) :
    Restores (.array items) (build .null nodes) := by
  -- The first node already makes an array of null.
  have hstart : build .null nodes = build (.array []) nodes := by
    obtain ⟨node, rest, rfl⟩ := List.exists_cons_of_ne_nil hne
    rw [build_cons, build_cons]
    cases hnodes node List.mem_cons_self with
    | root => rfl
    | item i key v => simp [nested, Value.merge, Value.mergeItems_nil]
  obtain ⟨ys, hys, hget, hlength⟩ := build_array hnodes []
  have hbound : ∀ m, ys.length ≤ m ↔ items.length ≤ m := by
    intro m
    rw [hlength]
    constructor
    · rintro ⟨-, hall⟩
      by_contra hm
      have hitem := List.getElem?_eq_getElem (Nat.not_le.mp hm)
      exact Nat.lt_irrefl m (hall m ((hbelow m).ne_nil_iff.mpr (by rw [hitem]; rfl)))
    · intro hm
      refine ⟨Nat.zero_le m, fun i hi => ?_⟩
      obtain ⟨v, hv⟩ := Option.isSome_iff_exists.mp ((hbelow i).ne_nil_iff.mp hi)
      exact Nat.lt_of_lt_of_le (List.getElem?_eq_some_iff.mp hv).1 hm
  have hsame : ys.length = items.length :=
    Nat.le_antisymm ((hbound _).mpr (Nat.le_refl _)) ((hbound _).mp (Nat.le_refl _))
  have hitem : ∀ (i : Nat) (y : Value), ys[i]? = some y →
      ∃ v, items[i]? = some v ∧ Restores v y := by
    intro i y hy
    have hi : i < items.length := hsame ▸ (List.getElem?_eq_some_iff.mp hy).1
    have hbuilt : y = build .null (below (.index i) nodes) := by
      simpa [hy] using hget i
    have hcovers := hbelow i
    rw [List.getElem?_eq_getElem hi] at hcovers ⊢
    exact ⟨_, rfl, hbuilt ▸ hcovers.restores⟩
  rw [hstart, hys]
  constructor
  · refine .array ys fun y hy => ?_
    obtain ⟨i, hi⟩ := List.getElem?_of_mem hy
    obtain ⟨v, -, hdocument, -⟩ := hitem i y hi
    exact hdocument
  · rw [Value.equal]
    refine Value.equalItems_of_getElem? hsame fun i y v hy hv => ?_
    obtain ⟨v', hv', -, hequal⟩ := hitem i y hy
    cases hv.symm.trans hv'
    exact hequal

theorem restores_object {entries : Entries Value} (hkeys : (Entries.keys entries).Nodup)
    {nodes : List (Key × Value)} (hnodes : ∀ node ∈ nodes, IsObjectNode node) (hne : nodes ≠ [])
    (hbelow : ∀ k, Covers (Entries.find? entries k) (below (.ident k) nodes)) :
    Restores (.object entries) (build .null nodes) := by
  have hstart : build .null nodes = build (.object []) nodes := by
    obtain ⟨node, rest, rfl⟩ := List.exists_cons_of_ne_nil hne
    rw [build_cons, build_cons]
    cases hnodes node List.mem_cons_self with
    | root => rfl
    | entry k key v => simp [nested, Value.merge, Value.mergeEntries, Entries.find?]
  have hempty : (Entries.keys ([] : Entries Value)).Nodup := by simp [Entries.keys]
  obtain ⟨fs, hfs, hnodup, hfind⟩ := build_object hnodes hempty
  have hmem : ∀ k, k ∈ Entries.keys fs ↔ k ∈ Entries.keys entries := by
    intro k
    rw [← Entries.isSome_find?_iff, ← Entries.isSome_find?_iff, ← (hbelow k).ne_nil_iff, hfind]
    by_cases hnil : below (.ident k) nodes = [] <;> simp [hnil, Entries.find?]
  have hentry : ∀ k w, Entries.find? fs k = some w →
      ∃ v, Entries.find? entries k = some v ∧ Restores v w := by
    intro k w hw
    have hk := (hmem k).mp (Entries.isSome_find?_iff.mp (by rw [hw]; rfl))
    obtain ⟨v, hv⟩ := Option.isSome_iff_exists.mp (Entries.isSome_find?_iff.mpr hk)
    have hcovers := hbelow k
    rw [hv] at hcovers
    have hsome : below (.ident k) nodes ≠ [] := hcovers.ne_nil_iff.mpr rfl
    have hbuilt : build .null (below (.ident k) nodes) = w := by
      simpa [hfind, hsome, Entries.find?] using hw
    exact ⟨v, hv, hbuilt ▸ hcovers.restores⟩
  rw [hstart, hfs]
  constructor
  · refine .object fs hnodup fun e he => ?_
    obtain ⟨v, -, hdocument, -⟩ := hentry e.1 e.2 (Entries.find?_of_mem hnodup he)
    exact hdocument
  · refine Value.equal_object_of_find? hnodup hkeys hmem fun k w v hw hv => ?_
    obtain ⟨v', hv', -, hequal⟩ := hentry k w hw
    cases hv.symm.trans hv'
    exact hequal

theorem isArrayNode_of_mem {items : List Value} {node : Key × Value}
    (h : node ∈ nodes [] (.array items)) : IsArrayNode node := by
  rw [nodes, List.mem_cons] at h
  rcases h with rfl | h
  · exact .root
  · obtain ⟨i, -, key, hkey⟩ := exists_of_mem_nodesOfItems h
    obtain ⟨_, v⟩ := node
    cases hkey
    exact .item i key v

theorem isObjectNode_of_mem {entries : Entries Value} {node : Key × Value}
    (h : node ∈ nodes [] (.object entries)) : IsObjectNode node := by
  rw [nodes, List.mem_cons] at h
  rcases h with rfl | h
  · exact .root
  · obtain ⟨k, -, key, hkey⟩ := exists_of_mem_nodesOfEntries h
    obtain ⟨_, v⟩ := node
    cases hkey
    exact .entry k key v

theorem ne_nil_of_perm_nodes {v : Value} {others : List (Key × Value)}
    (hperm : others.Perm (nodes [] v)) : others ≠ [] := by
  rintro rfl
  exact nodes_ne_nil v (List.nil_perm.mp hperm)

theorem covers_of_perm {v : Value} (hv : v.IsDocument) {others : List (Key × Value)}
    (hperm : others.Perm (nodes [] v)) (s : Segment)
    (hchild : ∀ u, v.child? s = some u → ∀ inner : List (Key × Value), inner.Perm (nodes [] u) →
      Restores u (build .null inner)) :
    Covers (v.child? s) (below s others) := by
  have hbelow : (below s others).Perm (below s (nodes [] v)) := hperm.filterMap _
  rw [below_nodes hv] at hbelow
  cases hs : v.child? s with
  | none =>
      rw [hs] at hbelow
      rw [List.perm_nil.mp hbelow]
      exact .nothing
  | some u =>
      rw [hs] at hbelow
      exact .child (ne_nil_of_perm_nodes hbelow) (hchild u hs _ hbelow)

theorem restores_scalar {v : Value} (hv : v.IsDocument) (hnodes : nodes [] v = [([], v)])
    (hequal : v.equal v = true) {others : List (Key × Value)} (hperm : others.Perm (nodes [] v)) :
    Restores v (build .null others) := by
  rw [hnodes] at hperm
  rw [List.perm_singleton.mp hperm, build_cons, Value.null_merge]
  exact ⟨hv, hequal⟩

/-- The nodes of a document build it again, in whatever order they come. -/
theorem restores_build {v : Value} (hv : v.IsDocument) {others : List (Key × Value)}
    (hperm : others.Perm (nodes [] v)) : Restores v (build .null others) := by
  induction hv generalizing others with
  | null => exact restores_scalar .null rfl rfl hperm
  | bool b => exact restores_scalar (.bool b) rfl (by simp [Value.equal]) hperm
  | number n => exact restores_scalar (.number n) rfl (Number.equal_self n) hperm
  | string s => exact restores_scalar (.string s) rfl (by simp [Value.equal]) hperm
  | array items hitems ih =>
      refine restores_array (fun node hnode => isArrayNode_of_mem (hperm.subset hnode))
        (ne_nil_of_perm_nodes hperm) fun i => ?_
      rw [← Value.child?_array]
      refine covers_of_perm (.array items hitems) hperm _ fun u hu inner hinner => ?_
      rw [Value.child?_array] at hu
      exact ih u (List.mem_of_getElem? hu) hinner
  | object entries hkeys hentries ih =>
      refine restores_object hkeys (fun node hnode => isObjectNode_of_mem (hperm.subset hnode))
        (ne_nil_of_perm_nodes hperm) fun k => ?_
      refine covers_of_perm (.object entries hkeys hentries) hperm (.ident k)
        fun u hu inner hinner => ?_
      exact ih (k, u) (Entries.mem_of_find? hu) hinner

end Reshape.Key
