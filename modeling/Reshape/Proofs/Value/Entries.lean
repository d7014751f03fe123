import Mathlib.Data.List.Forall2
import Mathlib.Data.List.Nodup
import Mathlib.Data.Option.Defs
import Reshape.Value.Entries

namespace Reshape.Entries

variable {α : Type}

theorem keys_nil : keys ([] : Entries α) = [] :=
  rfl

theorem keys_cons (e : String × α) (entries : Entries α) :
    keys (e :: entries) = e.1 :: keys entries :=
  rfl

theorem keys_append (entries others : Entries α) :
    keys (entries ++ others) = keys entries ++ keys others :=
  List.map_append

theorem mem_of_find? {entries : Entries α} {key : String} {value : α}
    (h : find? entries key = some value) : (key, value) ∈ entries := by
  induction entries with
  | nil => cases h
  | cons e rest ih =>
      rw [find?] at h
      split at h
      · rename_i hkey
        cases h
        rw [← hkey]
        exact List.mem_cons_self
      · exact List.mem_cons_of_mem _ (ih h)

theorem find?_of_mem {entries : Entries α} (hkeys : (keys entries).Nodup) {e : String × α}
    (he : e ∈ entries) : find? entries e.1 = some e.2 := by
  induction entries with
  | nil => cases he
  | cons d rest ih =>
      obtain ⟨hnotMem, hrest⟩ := List.nodup_cons.mp hkeys
      rcases List.mem_cons.mp he with rfl | he
      · simp [find?]
      · have hne : d.1 ≠ e.1 := by
          intro heq
          exact hnotMem (heq ▸ List.mem_map_of_mem he)
        rw [find?, if_neg hne]
        exact ih hrest he

theorem find?_eq_some_iff {entries : Entries α} (hkeys : (keys entries).Nodup) {key : String}
    {value : α} : find? entries key = some value ↔ (key, value) ∈ entries := by
  constructor
  · intro h
    exact mem_of_find? h
  · intro h
    exact find?_of_mem hkeys h

theorem find?_eq_of_perm {entries others : Entries α} (h : entries.Perm others)
    (hkeys : (keys entries).Nodup) (key : String) : find? entries key = find? others key := by
  have hothers : (keys others).Nodup := (h.map Prod.fst).nodup_iff.mp hkeys
  refine Option.ext fun value => ?_
  rw [find?_eq_some_iff hkeys, find?_eq_some_iff hothers, h.mem_iff]

theorem isSome_find?_iff {entries : Entries α} {key : String} :
    (find? entries key).isSome ↔ key ∈ keys entries := by
  rw [Option.isSome_iff_ne_none, ne_eq, find?_eq_none_iff, not_not]

theorem contains_iff {entries : Entries α} {key : String} :
    contains entries key = true ↔ key ∈ keys entries := by
  rw [contains, List.any_eq_true, keys, List.mem_map]
  simp only [beq_iff_eq]

theorem insert_of_notMem {entries : Entries α} {key : String} (value : α)
    (hkey : key ∉ keys entries) : insert entries key value = entries ++ [(key, value)] := by
  induction entries with
  | nil => rfl
  | cons e rest ih =>
      rw [keys_cons, List.mem_cons, not_or] at hkey
      rw [insert, if_neg (Ne.symm hkey.1), ih hkey.2, List.cons_append]

theorem nodup_keys_insert {entries : Entries α} (hkeys : (keys entries).Nodup) (key : String)
    (value : α) : (keys (insert entries key value)).Nodup := by
  by_cases hkey : key ∈ keys entries
  · rwa [keys_insert_of_mem value hkey]
  · rw [keys_insert_of_notMem value hkey, ← List.concat_eq_append]
    exact hkeys.concat hkey

theorem forall_mem_insert {Q : String × α → Prop} {entries : Entries α}
    (hentries : ∀ e ∈ entries, Q e) {key : String} {value : α} (hvalue : Q (key, value)) :
    ∀ e ∈ insert entries key value, Q e := by
  induction entries with
  | nil => exact List.forall_mem_singleton.mpr hvalue
  | cons d rest ih =>
      obtain ⟨hd, hrest⟩ := List.forall_mem_cons.mp hentries
      rw [insert]
      split
      · rename_i hkey
        exact List.forall_mem_cons.mpr ⟨hkey ▸ hvalue, hrest⟩
      · exact List.forall_mem_cons.mpr ⟨hd, ih hrest⟩

/-- What is written from pairs has distinct keys, and each entry is one of the pairs. -/
theorem nodup_keys_ofList_and_forall_mem {Q : String × α → Prop} {pairs : List (String × α)}
    (hpairs : ∀ e ∈ pairs, Q e) :
    (keys (ofList pairs)).Nodup ∧ ∀ e ∈ ofList pairs, Q e := by
  refine List.foldlRecOn (motive := fun entries => (keys entries).Nodup ∧ ∀ e ∈ entries, Q e)
    pairs _ ⟨List.nodup_nil, nofun⟩ ?_
  rintro entries ⟨hkeys, hentries⟩ e he
  exact ⟨nodup_keys_insert hkeys e.1 e.2, forall_mem_insert hentries (hpairs e he)⟩

theorem ofList_eq_self {pairs : List (String × α)} (hkeys : (keys pairs).Nodup) :
    ofList pairs = pairs := by
  have hfold : ∀ (done : Entries α), (keys (done ++ pairs)).Nodup →
      pairs.foldl (fun entries e => insert entries e.1 e.2) done = done ++ pairs := by
    clear hkeys
    induction pairs with
    | nil =>
        intro done _
        simp
    | cons e rest ih =>
        intro done hdone
        have hnew : e.1 ∉ keys done := by
          rw [keys_append, keys_cons] at hdone
          intro hmem
          exact (List.nodup_append.mp hdone).2.2 _ hmem _ List.mem_cons_self rfl
        rw [List.foldl_cons, insert_of_notMem _ hnew, ih]
        · simp
        · simpa using hdone
  simpa [ofList] using hfold [] (by simpa using hkeys)

theorem length_eq_of_mem_keys_iff {β : Type} {entries : Entries α} {others : Entries β}
    (hentries : (keys entries).Nodup) (hothers : (keys others).Nodup)
    (hkeys : ∀ key, key ∈ keys entries ↔ key ∈ keys others) :
    entries.length = others.length := by
  have hperm := (List.perm_ext_iff_of_nodup hentries hothers).mpr hkeys
  simpa [keys] using hperm.length_eq

/-! ### Maps with related values -/

section Related

variable {β : Type} {R : α → β → Prop} {entries : Entries α} {others : Entries β}

theorem forall₂_iff :
    List.Forall₂ (fun e f => e.1 = f.1 ∧ R e.2 f.2) entries others ↔
      keys entries = keys others ∧
        List.Forall₂ R (entries.map Prod.snd) (others.map Prod.snd) := by
  rw [← List.forall₂_eq_eq_eq, keys, keys, List.forall₂_map_left_iff,
    List.forall₂_map_right_iff, List.forall₂_map_left_iff, List.forall₂_map_right_iff]
  constructor
  · intro h
    exact ⟨h.imp fun _ _ => And.left, h.imp fun _ _ => And.right⟩
  · rintro ⟨hkeys, hvalues⟩
    exact hkeys.mp (fun _ _ => And.intro) hvalues

theorem forall₂_of_keys_eq (hkeys : keys entries = keys others)
    (h : ∀ e ∈ entries, ∀ f ∈ others, e.1 = f.1 → R e.2 f.2) :
    List.Forall₂ (fun e f => e.1 = f.1 ∧ R e.2 f.2) entries others := by
  induction entries generalizing others with
  | nil =>
      rw [List.map_eq_nil_iff.mp hkeys.symm]
      exact .nil
  | cons e rest ih =>
      cases others with
      | nil => cases hkeys
      | cons f rest' =>
          obtain ⟨hkey, hrest⟩ := List.cons_eq_cons.mp hkeys
          refine .cons ⟨hkey, h e List.mem_cons_self f List.mem_cons_self hkey⟩ (ih hrest ?_)
          intro e he f hf
          exact h e (List.mem_cons_of_mem _ he) f (List.mem_cons_of_mem _ hf)

theorem rel_find?_of_forall₂
    (h : List.Forall₂ (fun e f => e.1 = f.1 ∧ R e.2 f.2) entries others) (key : String) :
    Option.Rel R (find? entries key) (find? others key) := by
  induction h with
  | nil => exact .none
  | @cons e f rest rest' he _ ih =>
      obtain ⟨k, v⟩ := e
      obtain ⟨l, w⟩ := f
      obtain ⟨rfl, hR⟩ := he
      rw [find?, find?]
      split
      · exact .some hR
      · exact ih

end Related

/-! ### The order of the keys -/

theorem sorted_perm (entries : Entries α) : (sorted entries).Perm entries :=
  Sorting.arrange_perm _ entries

theorem pairwise_sorted {entries : Entries α} (hkeys : (keys entries).Nodup) :
    (sorted entries).Pairwise fun e f => e.1 < f.1 := by
  have hle : ∀ k l : String, (!(l < k : Bool)) = true ↔ k ≤ l := by
    intro k l
    rw [Bool.not_eq_true', decide_eq_false_iff_not, String.not_lt]
  have hsorted : (sorted entries).Pairwise fun e f => (!(f.1 < e.1 : Bool)) = true := by
    refine Sorting.pairwise_arrange (fun e f => ?_) (fun e f g => ?_) entries
    · rw [hle, hle]
      exact String.le_total e.1 f.1
    · rw [hle, hle, hle]
      exact String.le_trans
  have hne : (sorted entries).Pairwise fun e f => e.1 ≠ f.1 :=
    List.pairwise_map.mp (((sorted_perm entries).map Prod.fst).nodup_iff.mpr hkeys)
  refine hsorted.imp₂ (fun e f hef hne => ?_) hne
  exact Std.lt_of_le_of_ne ((hle e.1 f.1).mp hef) hne

theorem sorted_eq_of_perm {entries others : Entries α} (hkeys : (keys entries).Nodup)
    (h : entries.Perm others) : sorted entries = sorted others := by
  have hothers : (keys others).Nodup := (h.map Prod.fst).nodup_iff.mp hkeys
  refine List.Perm.eq_of_pairwise (fun e f _ _ hef hfe => ?_) (pairwise_sorted hkeys)
    (pairwise_sorted hothers) ?_
  · exact absurd (String.lt_trans hef hfe) (String.lt_irrefl _)
  · exact (sorted_perm entries).trans (h.trans (sorted_perm others).symm)

end Reshape.Entries
