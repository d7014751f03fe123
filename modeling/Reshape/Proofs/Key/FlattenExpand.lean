import Mathlib.Data.List.Perm.Basic
import Reshape.Proofs.Key.Expansion
import Reshape.Proofs.Key.Listing

/-!
Expanding takes flattening back. Main statement: `expand_flatten`, for the entries of a
flattened document in any order. Whether there is a result depends on whether there can be arrays
of the sizes that the document has, and on nothing else.
-/

namespace Reshape

/-- No array of the document has more elements than there can be. -/
def Value.FitsMemory (v : Value) : Prop :=
  ∀ key items, v.at? key = some (.array items) → (items.length : Int) ≤ Key.indexLimit

namespace Key

/-- Whether there can be the arrays along a way. -/
def Fits (key : Key) : Prop :=
  ∀ i, Segment.index i ∈ key → i < indexLimit

/-- How an expansion fails on an array that is too large. -/
def IsMemoryFault (e : Fault) : Prop :=
  e = .indexTooLarge ∨ ∃ digits, e = .indexTooLong digits

section Expand

theorem fits_ident_cons {k : String} {rest : Key} : Fits (.ident k :: rest) ↔ Fits rest := by
  simp [Fits]

theorem fits_index_cons {i : Int} {rest : Key} :
    Fits (.index i :: rest) ↔ i < indexLimit ∧ Fits rest := by
  simp [Fits, or_imp, forall_and]

theorem isShort_of_lt_indexLimit {i : Int} (hi : 0 ≤ i) (hlt : i < indexLimit) :
    Decimal.isShort i = true := by
  have hlimit : indexLimit < tenTo 19 := by decide
  have hle : tenTo 19 ≤ tenTo Decimal.digitLimit := tenTo_le_tenTo (by decide)
  rw [Decimal.isShort, decide_eq_true_eq]
  omega

/-- The indices of arrays that there can be are short. -/
theorem Fits.all_isShort {key : Key} (hfits : Fits key) (hkey : CountsForward key) :
    key.all Segment.isShort = true := by
  refine List.all_eq_true.mpr fun segment hsegment => ?_
  cases segment with
  | ident name => rfl
  | index i => exact isShort_of_lt_indexLimit (hkey i hsegment) (hfits i hsegment)

theorem nest_of_fits {key : Key} (hkey : Fits key) (v : Value) :
    nest key v = .ok (nested v key) := by
  induction key with
  | nil => rfl
  | cons s rest ih =>
      cases s with
      | ident k =>
          rw [nest, ih (fits_ident_cons.mp hkey)]
          rfl
      | index i =>
          obtain ⟨hi, hrest⟩ := fits_index_cons.mp hkey
          rw [nest, if_neg (Int.not_le.mpr hi), ih hrest]
          rfl

theorem nest_of_not_fits {key : Key} (hkey : ¬ Fits key) (v : Value) :
    nest key v = .error .indexTooLarge := by
  induction key with
  | nil => exact absurd (by simp [Fits]) hkey
  | cons s rest ih =>
      cases s with
      | ident k =>
          rw [nest, ih (mt fits_ident_cons.mpr hkey)]
          rfl
      | index i =>
          rw [nest]
          split
          · rfl
          · rename_i hi
            rw [fits_index_cons, not_and] at hkey
            rw [ih (hkey (Int.not_le.mp hi))]
            rfl

variable {key : Key} (hne : key ≠ []) (hforward : CountsForward key)

include hne hforward

theorem ofText_spelling (hfits : Fits key) : ofText key.spelling = .ok key := by
  rw [ofText, read_spelling hne hforward (hfits.all_isShort hforward)]

theorem ofText_spelling_or :
    ofText key.spelling = .ok key ∨
      ∃ digits, ofText key.spelling = .error (.indexTooLong digits) := by
  cases hread : read key.spelling with
  | ok other =>
      obtain ⟨parts, hspelling, -, rfl⟩ := read_eq_ok_iff.mp hread
      have hparts := (parse_of_isSpelling hspelling).symm.trans (parse_spelling hne hforward)
      rw [Except.ok.inj hparts, hforward.map_value_part] at hread
      exact .inl (by rw [ofText, hread])
  | error e =>
      cases e with
      | malformed d =>
          cases (read_eq_malformed_iff.mp hread).symm.trans (parse_spelling hne hforward)
      | indexTooLong digits => exact .inr ⟨digits, by rw [ofText, hread]⟩

end Expand

section Entries

variable {rootName : String} {listed : List (Key × Value)}
  (hforward : ∀ node ∈ listed, CountsForward node.1)

include hforward

theorem expandEntries_of_fits (hfits : ∀ node ∈ listed, Fits node.1) (done : Value) :
    expandEntries done (listed.map (entryOf rootName)) =
      .ok (build done (listed.map (under (.ident rootName)))) := by
  induction listed generalizing done with
  | nil => rfl
  | cons node rest ih =>
      obtain ⟨hnode, hrest⟩ := List.forall_mem_cons.mp hforward
      obtain ⟨hnodeFits, hrestFits⟩ := List.forall_mem_cons.mp hfits
      have hkey : Fits (.ident rootName :: node.1) := fits_ident_cons.mpr hnodeFits
      rw [List.map_cons, entryOf, expandEntries,
        ofText_spelling (List.cons_ne_nil _ _) (hnode.ident_cons rootName) hkey]
      dsimp only
      rw [nest_of_fits hkey]
      exact ih hrest hrestFits _

theorem expandEntries_of_not_fits (hfits : ¬ ∀ node ∈ listed, Fits node.1) (done : Value) :
    ∃ e, expandEntries done (listed.map (entryOf rootName)) = .error e ∧ IsMemoryFault e := by
  induction listed generalizing done with
  | nil => exact absurd nofun hfits
  | cons node rest ih =>
      obtain ⟨hnode, hrest⟩ := List.forall_mem_cons.mp hforward
      rw [List.map_cons, entryOf, expandEntries]
      rcases ofText_spelling_or (List.cons_ne_nil _ _) (hnode.ident_cons rootName) with
        hkey | ⟨digits, hlong⟩
      · rw [hkey]
        dsimp only
        by_cases hnodeFits : Fits (.ident rootName :: node.1)
        · rw [nest_of_fits hnodeFits]
          exact ih hrest (fun h => hfits (List.forall_mem_cons.mpr
            ⟨fits_ident_cons.mp hnodeFits, h⟩)) _
        · rw [nest_of_not_fits hnodeFits]
          exact ⟨_, rfl, .inl rfl⟩
      · rw [hlong]
        exact ⟨_, rfl, .inr ⟨digits, rfl⟩⟩

end Entries

section Flatten

theorem exists_nodes_of_perm {v : Value} (hv : v.IsDocument) {rootName : String}
    {entries : Entries Value} (hperm : entries.Perm (flatten v rootName)) :
    ∃ listed : List (Key × Value),
      entries = listed.map (entryOf rootName) ∧ listed.Perm (nodes [] v) := by
  rw [flatten_eq hv] at hperm
  have hcomp := congrFun₂ (List.eq_map_comp_perm (entryOf rootName)) entries (nodes [] v)
  exact hcomp.mpr (hperm.trans (Entries.sorted_perm _))

theorem fits_nodes_iff {v : Value} (hv : v.IsDocument) :
    (∀ node ∈ nodes [] v, Fits node.1) ↔ v.FitsMemory := by
  constructor
  · intro hnodes key items hitems
    by_contra hlarge
    -- The last element lies behind the largest index.
    obtain ⟨n, hn⟩ : ∃ n, items.length = n + 1 :=
      Nat.exists_eq_succ_of_ne_zero fun h => hlarge (by rw [h]; decide)
    have hlast : v.at? (key ++ [.index n]) = some items[n] := by
      rw [Value.at?_append, hitems, Option.bind_some, Value.at?_cons, Value.child?_array,
        List.getElem?_eq_getElem]
      rfl
    have hfits := hnodes _ ((mem_nodes_iff hv).mpr ⟨_, hlast, rfl⟩) n (by simp)
    omega
  · rintro hfits ⟨key, r⟩ hnode i hi
    obtain ⟨w, hw, -⟩ := (mem_nodes_iff hv).mp hnode
    obtain ⟨before, after, rfl⟩ := List.append_of_mem hi
    rw [Value.at?_append] at hw
    obtain ⟨u, hu, hw⟩ := Option.bind_eq_some_iff.mp hw
    obtain ⟨x, hx, -⟩ := Option.bind_eq_some_iff.mp hw
    rcases Value.exists_of_child?_eq_some hx with ⟨items, n, rfl, hn, hget⟩ | ⟨_, _, _, hk, _⟩
    · cases hn
      have hlength := hfits before items hu
      have hlt := (List.getElem?_eq_some_iff.mp hget).1
      omega
    · cases hk

end Flatten

/-- A flattened document expands to an object that holds it under the name of its root, in
whatever order its entries come, unless there can be no array of the size of one of its own. -/
theorem expand_flatten {v : Value} (hv : v.IsDocument) {rootName : String}
    {entries : Entries Value} (hperm : entries.Perm (flatten v rootName)) :
    (v.FitsMemory → ∃ w, expand (.object entries) = .ok w ∧ w.IsDocument ∧
      w.equal (.object [(rootName, v)]) = true) ∧
    (¬ v.FitsMemory → ∃ e, expand (.object entries) = .error e ∧ IsMemoryFault e) := by
  obtain ⟨listed, rfl, hlisted⟩ := exists_nodes_of_perm hv hperm
  have hne : listed ≠ [] := ne_nil_of_perm_nodes hlisted
  have hforward : ∀ node ∈ listed, CountsForward node.1 := fun node hnode =>
    countsForward_of_mem_nodes hv (hlisted.subset hnode)
  have hfits : (∀ node ∈ listed, Fits node.1) ↔ v.FitsMemory := by
    rw [← fits_nodes_iff hv]
    simp only [hlisted.mem_iff]
  have hexpand : expand (.object (listed.map (entryOf rootName))) =
      expandEntries .null (listed.map (entryOf rootName)) := by
    obtain ⟨node, rest, rfl⟩ := List.exists_cons_of_ne_nil hne
    rfl
  rw [hexpand]
  constructor
  · intro hmemory
    rw [expandEntries_of_fits hforward (hfits.mpr hmemory)]
    have hrestores : Restores (.object [(rootName, v)])
        (build .null (listed.map (under (.ident rootName)))) := by
      refine restores_object (by simp [Entries.keys]) ?_ (by simpa using hne) fun k => ?_
      · intro node hnode
        obtain ⟨inner, -, rfl⟩ := List.mem_map.mp hnode
        exact .entry rootName inner.1 inner.2
      · rw [below_map_under, Entries.find?]
        by_cases hk : rootName = k
        · rw [if_pos hk, if_pos (by rw [hk])]
          exact .child hne (restores_build hv hlisted)
        · rw [if_neg hk, if_neg (by simpa using hk)]
          exact .nothing
    exact ⟨_, rfl, hrestores⟩
  · intro hlarge
    exact expandEntries_of_not_fits hforward (mt hfits.mp hlarge) .null

/-- Twelve elements, so that index ten comes before index two, and keys that are empty or
hold a dot, a quote, a bracket and a line break. -/
def oddDocument : Value :=
  .object [("a.b", .array ((List.replicate 11 .null).concat (.array []))),
    ("", .object [("", .null)]), ("\"]\n", .bool true)]

theorem expand_flatten_reversed :
    ∃ w, expand (.object (flatten oddDocument "data").reverse) = .ok w ∧ w.IsDocument ∧
      w.equal (.object [("data", oddDocument)]) = true := by
  have harray : (Value.array ((List.replicate 11 .null).concat (.array []))).IsDocument := by
    refine .array _ fun v hv => ?_
    rcases List.mem_append.mp (List.concat_eq_append ▸ hv) with hv | hv
    · exact List.eq_of_mem_replicate hv ▸ .null
    · exact List.mem_singleton.mp hv ▸ .array [] (by simp)
  have hinner : (Value.object [("", .null)]).IsDocument :=
    .object _ (by decide) (by simpa using Value.IsDocument.null)
  have hv : oddDocument.IsDocument := by
    refine .object _ (by decide) ?_
    simpa using ⟨harray, hinner, Value.IsDocument.bool true⟩
  refine (expand_flatten hv (List.reverse_perm _)).1 ((fits_nodes_iff hv).mp ?_)
  have hlimit : 11 < indexLimit := by decide
  simp [oddDocument, nodes, nodesOfEntries, nodesOfItems, List.replicate, Fits]
  omega

end Key

end Reshape
