import Reshape.Proofs.Outcome
import Reshape.Proofs.Value.Document
import Reshape.Query.Engine

namespace Reshape.Query

section Node

/-- A node of a document: a document below documents, or a bare number below them. -/
structure Node.IsSound (m : Node) : Prop where
  value : m.value.IsDocument ∨ ∃ x, m.value = .bare x
  ancestors : ∀ a ∈ m.ancestors, a.1.IsDocument

namespace Node

variable {m : Node}

theorem isSound_ofRoot {v : Value} (hv : v.IsDocument) : (ofRoot v).IsSound :=
  ⟨.inl hv, List.forall_mem_nil _⟩

theorem IsSound.isDocument (h : m.IsSound) (hvalue : ∀ x, m.value ≠ .bare x) :
    m.value.IsDocument :=
  h.value.resolve_right fun ⟨x, hx⟩ => hvalue x hx

theorem IsSound.below (h : m.IsSound) (hvalue : ∀ x, m.value ≠ .bare x) {v : Value}
    (hv : v.IsDocument) (segment : Key.Segment) : (m.below segment v).IsSound :=
  ⟨.inl hv, List.forall_mem_cons.mpr ⟨h.isDocument hvalue, h.ancestors⟩⟩

theorem IsSound.below_of_mem (h : m.IsSound) {items : List Value}
    (hitems : m.value = .array items) {v : Value} (hv : v ∈ items) (segment : Key.Segment) :
    (m.below segment v).IsSound := by
  have hvalue : ∀ x, m.value ≠ .bare x := by simp [hitems]
  exact h.below hvalue ((hitems ▸ h.isDocument hvalue).of_mem_items v hv) segment

theorem IsSound.below_of_mem_entries (h : m.IsSound) {entries : Entries Value}
    (hentries : m.value = .object entries) {e : String × Value} (he : e ∈ entries)
    (segment : Key.Segment) : (m.below segment e.2).IsSound := by
  have hvalue : ∀ x, m.value ≠ .bare x := by simp [hentries]
  exact h.below hvalue ((hentries ▸ h.isDocument hvalue).of_mem_entries e he) segment

theorem IsSound.root (h : m.IsSound) : m.root.IsSound := by
  rw [Node.root]
  split
  · rename_i v location hlast
    exact isSound_ofRoot (h.ancestors _ (List.mem_of_getLast? hlast))
  · exact ⟨h.value, List.forall_mem_nil _⟩

theorem IsSound.parent? (h : m.IsSound) : ∀ n ∈ m.parent?, n.IsSound := by
  intro n hn
  rw [Node.parent?] at hn
  cases hancestors : m.ancestors with
  | nil =>
      rw [hancestors] at hn
      cases hn
  | cons a rest =>
      rw [hancestors] at hn
      cases hn
      obtain ⟨ha, hrest⟩ := List.forall_mem_cons.mp (hancestors ▸ h.ancestors)
      exact ⟨.inl ha, hrest⟩

theorem isSound_computed_bare (x : Bare) : (computed (.bare x)).IsSound :=
  ⟨.inr ⟨x, rfl⟩, List.forall_mem_nil _⟩

theorem isSound_size? : ∀ n ∈ m.size?, n.IsSound := by
  intro n hn
  rw [size?] at hn
  split at hn <;> cases hn <;> exact isSound_computed_bare _

theorem isSound_keys : ∀ n ∈ m.keys, n.IsSound := by
  intro n hn
  rw [keys] at hn
  split at hn
  · obtain ⟨e, -, rfl⟩ := List.mem_map.mp hn
    exact ⟨.inl (.string _), List.forall_mem_nil _⟩
  · cases hn

theorem IsSound.elements (h : m.IsSound) {items : List Value}
    (hitems : m.value = .array items) : ∀ n ∈ m.elements items, n.IsSound := by
  intro n hn
  obtain ⟨⟨v, i⟩, hmem, rfl⟩ := List.mem_map.mp hn
  exact h.below_of_mem hitems (List.fst_mem_of_mem_zipIdx hmem) _

theorem map_value_elements (m : Node) (items : List Value) :
    (m.elements items).map Node.value = items := by
  rw [Node.elements, List.map_map]
  exact List.zipIdx_map_fst 0 items

theorem IsSound.children (h : m.IsSound) : ∀ n ∈ m.children, n.IsSound := by
  rw [Node.children]
  split
  · rename_i items hitems
    exact h.elements hitems
  · rename_i entries hentries
    intro n hn
    obtain ⟨e, he, rfl⟩ := List.mem_map.mp hn
    exact h.below_of_mem_entries hentries he _
  · exact List.forall_mem_nil _

theorem IsSound.fields (h : m.IsSound) (names : List String) :
    ∀ n ∈ m.fields names, n.IsSound := by
  rw [Node.fields]
  split
  · rename_i entries hentries
    intro n hn
    obtain ⟨name, -, hfound⟩ := List.mem_filterMap.mp hn
    obtain ⟨v, hv, rfl⟩ := Option.map_eq_some_iff.mp hfound
    exact h.below_of_mem_entries hentries (Entries.mem_of_find? hv) _
  · exact List.forall_mem_nil _

theorem IsSound.indices (h : m.IsSound) (indices : List Int) :
    ∀ n ∈ m.indices indices, n.IsSound := by
  rw [Node.indices]
  split
  · rename_i items hitems
    intro n hn
    obtain ⟨i, -, hfound⟩ := List.mem_filterMap.mp hn
    obtain ⟨v, hv, rfl⟩ := Option.map_eq_some_iff.mp hfound
    obtain ⟨position, -, hv⟩ := Option.bind_eq_some_iff.mp hv
    exact h.below_of_mem hitems (List.mem_of_getElem? hv) _
  · exact List.forall_mem_nil _

theorem IsSound.listed (h : m.IsSound) : m.listed.IsSound := by
  rw [Node.listed]
  split
  · rename_i entries hentries
    have hdocument := h.isDocument (by simp [hentries])
    exact ⟨.inl ((hentries ▸ hdocument).members), h.ancestors⟩
  · exact h

mutual

theorem isSound_nodes (asArrays : Bool) (location : Option Key)
    {ancestors : List (Value × Option Key)} (hancestors : ∀ a ∈ ancestors, a.1.IsDocument)
    (v : Value) (hv : v.IsDocument) :
    ∀ n ∈ nodes asArrays location ancestors v, n.IsSound := by
  cases v with
  | array items =>
      refine List.forall_mem_cons.mpr ⟨⟨.inl hv, hancestors⟩, ?_⟩
      exact isSound_nodesOfItems asArrays location
        (List.forall_mem_cons.mpr ⟨hv, hancestors⟩) 0 items hv.of_mem_items
  | object entries =>
      have hself : (if asArrays then Value.array (entries.map Prod.snd)
          else .object entries).IsDocument := by
        split
        · exact hv.members
        · exact hv
      refine List.forall_mem_cons.mpr ⟨⟨.inl hself, hancestors⟩, ?_⟩
      exact isSound_nodesOfEntries asArrays location
        (List.forall_mem_cons.mpr ⟨hself, hancestors⟩) 0 entries hv.of_mem_entries
  | _ => exact List.forall_mem_singleton.mpr ⟨.inl hv, hancestors⟩

theorem isSound_nodesOfItems (asArrays : Bool) (location : Option Key)
    {ancestors : List (Value × Option Key)} (hancestors : ∀ a ∈ ancestors, a.1.IsDocument)
    (index : Nat) (items : List Value) (hitems : ∀ v ∈ items, v.IsDocument) :
    ∀ n ∈ nodesOfItems asArrays location ancestors index items, n.IsSound := by
  cases items with
  | nil => exact List.forall_mem_nil _
  | cons v items =>
      obtain ⟨hv, hitems⟩ := List.forall_mem_cons.mp hitems
      rw [nodesOfItems]
      exact List.forall_mem_append.mpr ⟨isSound_nodes asArrays _ hancestors v hv,
        isSound_nodesOfItems asArrays location hancestors _ items hitems⟩

theorem isSound_nodesOfEntries (asArrays : Bool) (location : Option Key)
    {ancestors : List (Value × Option Key)} (hancestors : ∀ a ∈ ancestors, a.1.IsDocument)
    (index : Nat) (entries : List (String × Value)) (hentries : ∀ e ∈ entries, e.2.IsDocument) :
    ∀ n ∈ nodesOfEntries asArrays location ancestors index entries, n.IsSound := by
  cases entries with
  | nil => exact List.forall_mem_nil _
  | cons e entries =>
      obtain ⟨key, v⟩ := e
      obtain ⟨hv, hentries⟩ := List.forall_mem_cons.mp hentries
      rw [nodesOfEntries]
      exact List.forall_mem_append.mpr ⟨isSound_nodes asArrays _ hancestors v hv,
        isSound_nodesOfEntries asArrays location hancestors _ entries hentries⟩

end

theorem IsSound.withDescendants (h : m.IsSound) (asArrays : Bool) :
    ∀ n ∈ m.withDescendants asArrays, n.IsSound := by
  rw [Node.withDescendants]
  rcases h.value with hv | ⟨x, hx⟩
  · exact isSound_nodes asArrays _ h.ancestors _ hv
  · rw [hx]
    exact List.forall_mem_singleton.mpr ⟨.inr ⟨x, rfl⟩, h.ancestors⟩

end Node

end Node

section Find

variable {α β : Type} {m : Node} {found : List Node}

theorem forall_mem_of_collect {Q : β → Prop} {f : α → Except Fault (List β)} {xs : List α}
    (hf : ∀ x ∈ xs, ∀ ys, f x = .ok ys → ∀ y ∈ ys, Q y) {ys : List β}
    (h : collect f xs = .ok ys) : ∀ y ∈ ys, Q y := by
  induction xs generalizing ys with
  | nil =>
      cases h
      exact List.forall_mem_nil _
  | cons x xs ih =>
      obtain ⟨hx, hxs⟩ := List.forall_mem_cons.mp hf
      rw [collect] at h
      split at h
      · cases h
      · rename_i found hfound
        obtain ⟨more, hmore, rfl⟩ := map_eq_ok_iff.mp h
        exact List.forall_mem_append.mpr ⟨hx found hfound, ih hxs hmore⟩

theorem Node.IsSound.slice (hm : m.IsSound) {first last step : Option Int}
    (h : m.slice first last step = .ok found) : ∀ n ∈ found, n.IsSound := by
  rw [Node.slice] at h
  split at h
  · rename_i items hitems
    split at h
    · cases h
    · cases h
      intro n hn
      obtain ⟨i, -, hfound⟩ := List.mem_filterMap.mp hn
      obtain ⟨v, hv, rfl⟩ := Option.map_eq_some_iff.mp hfound
      exact hm.below_of_mem hitems (List.mem_of_getElem? hv) _
  · cases h
    exact List.forall_mem_nil _

theorem Node.IsSound.filter (hm : m.IsSound) {holds : Value → Except Fault Bool}
    (h : m.filter holds = .ok found) : ∀ n ∈ found, n.IsSound := by
  rw [Node.filter] at h
  split at h
  · rename_i items hitems
    refine forall_mem_of_collect (fun n hn ns hns => ?_) h
    obtain ⟨b, -, rfl⟩ := map_eq_ok_iff.mp hns
    cases b with
    | true => exact List.forall_mem_singleton.mpr (hm.listed.elements hitems n hn)
    | false => exact List.forall_mem_nil _
  · cases h
    exact List.forall_mem_nil _

/-- What a path finds at a sound node is sound. -/
theorem Path.isSound_of_find (path : Path) {m : Node} {found : List Node} (hm : m.IsSound)
    (h : path.find m = .ok found) : ∀ n ∈ found, n.IsSound := by
  cases path with
  | root =>
      cases h
      exact List.forall_mem_singleton.mpr hm.root
  | here =>
      cases h
      exact List.forall_mem_singleton.mpr hm
  | parent =>
      cases h
      exact fun n hn => hm.parent? n (Option.mem_toList.mp hn)
  | size =>
      cases h
      exact fun n hn => Node.isSound_size? n (Option.mem_toList.mp hn)
  | keys =>
      cases h
      exact Node.isSound_keys
  | fields names =>
      cases h
      exact hm.fields names
  | children =>
      cases h
      exact hm.children
  | indices indices =>
      cases h
      exact hm.indices indices
  | slice first last step => exact hm.slice h
  | filter condition => exact hm.filter h
  | child left right =>
      rw [Path.find] at h
      split at h
      · cases h
      · rename_i ms hleft
        exact forall_mem_of_collect
          (fun n hn ns => right.isSound_of_find (left.isSound_of_find hm hleft n hn)) h
  | descent left right =>
      rw [Path.find] at h
      split at h
      · cases h
      · rename_i ms hleft
        refine forall_mem_of_collect (fun n hn ns => right.isSound_of_find ?_) h
        obtain ⟨k, hk, hn⟩ := List.mem_flatMap.mp hn
        exact (left.isSound_of_find hm hleft k hk).withDescendants right.isFilter n hn
  | union left right =>
      rw [Path.find] at h
      split at h
      · cases h
      · rename_i ms hleft
        obtain ⟨more, hright, rfl⟩ := map_eq_ok_iff.mp h
        exact List.forall_mem_append.mpr
          ⟨left.isSound_of_find hm hleft, right.isSound_of_find hm hright⟩

theorem Path.find_elements (items : List Value) :
    (Path.child .root .children).find (.ofRoot (.array items)) =
      .ok ((Node.ofRoot (.array items)).elements items) := by
  simp [Path.find, collect, Node.root, Node.ofRoot, Node.children, Except.map]

/-- At each node that a path finds, its size is found behind it, if it has one. -/
theorem Path.find_child_size (path : Path) (h : path.find m = .ok found) :
    (Path.child path .size).find m = .ok (found.filterMap Node.size?) := by
  have hcollect : ∀ ms : List Node,
      collect (fun n => Path.size.find n) ms = .ok (ms.filterMap Node.size?) := by
    intro ms
    induction ms with
    | nil => rfl
    | cons n ms ih =>
        rw [collect, ih]
        cases hsize : n.size? with
        | none => simp [Path.find, hsize, Except.map]
        | some k => simp [Path.find, hsize, Except.map]
  rw [Path.find, h]
  exact hcollect found

end Find

end Reshape.Query
