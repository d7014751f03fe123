import Reshape.Proofs.Key.Nodes
import Reshape.Proofs.Related
import Reshape.Proofs.Value.MergedPlace
import Reshape.Transform.Apply

namespace Reshape

/-! ### Members that are there or not -/

section Members

variable {α : Type} {f : α → α → α} {x y z : Option α}

theorem optionMerge_self (h : ∀ a ∈ x, f a a = a) : Option.merge f x x = x := by
  cases x with
  | none => rfl
  | some a => exact congrArg some (h a rfl)

theorem optionMerge_again (hself : ∀ b ∈ y, f b b = b)
    (h : ∀ a ∈ x, ∀ b ∈ y, f (f a b) b = f a b) :
    Option.merge f (Option.merge f x y) y = Option.merge f x y := by
  cases y with
  | none => simp
  | some b =>
      cases x with
      | none => exact congrArg some (hself b rfl)
      | some a => exact congrArg some (h a rfl b rfl)

theorem optionMerge_assoc (h : ∀ a ∈ x, ∀ b ∈ y, ∀ c ∈ z, f (f a b) c = f a (f b c)) :
    Option.merge f (Option.merge f x y) z = Option.merge f x (Option.merge f y z) := by
  cases x with
  | none => simp
  | some a =>
      cases y with
      | none => simp
      | some b =>
          cases z with
          | none => rfl
          | some c => exact congrArg some (h a rfl b rfl c rfl)

end Members

theorem Entries.eq_of_find?_eq {α : Type} {entries others : Entries α}
    (hentries : (keys entries).Nodup) (hkeys : keys entries = keys others)
    (hfind : ∀ key, find? entries key = find? others key) : entries = others := by
  have hpairs : List.Forall₂ (fun e f => e.1 = f.1 ∧ e.2 = f.2) entries others := by
    refine forall₂_of_keys_eq hkeys fun e he f hf hkey => ?_
    have hleft := find?_of_mem hentries he
    have hright := find?_of_mem (hkeys ▸ hentries) hf
    rw [hfind, hkey, hright] at hleft
    exact (Option.some.inj hleft).symm
  rw [← List.forall₂_eq_eq_eq]
  exact hpairs.imp fun _ _ h => Prod.ext h.1 h.2

namespace Value

/-! ### Conflicts -/

/-- The first document is a container, and the second one is neither null nor a container of the
same kind. -/
def conflicts (v w : Value) : Bool :=
  !v.isScalar && !w.isNull && v.kind? != w.kind?

/-- At no place do two of the documents conflict. -/
def ConflictFree (values : List Value) : Prop :=
  ∀ a ∈ values, ∀ b ∈ values, ∀ key v w, a.at? key = some v → b.at? key = some w →
    conflicts v w = false

theorem eq_null_or_sameContainer {v w : Value} (h : conflicts v w = false)
    (hv : v.isScalar = false) : w = null ∨ SameContainer v w := by
  cases v with
  | array xs =>
      cases w with
      | null => exact .inl rfl
      | array ys => exact .inr (.array xs ys)
      | _ => cases h
  | object es =>
      cases w with
      | null => exact .inl rfl
      | object fs => exact .inr (.object es fs)
      | _ => cases h
  | _ => cases hv

/-- What stands in documents without a conflict after one step has none either. -/
theorem ConflictFree.below {values parts : List Value} (h : ConflictFree values)
    {s : Key.Segment} (hparts : List.Forall₂ (fun v u => v.child? s = some u) values parts) :
    ConflictFree parts := by
  intro x hx y hy key v w hv hw
  obtain ⟨a, ha, hax⟩ := exists_mem_of_forall₂ hparts hx
  obtain ⟨b, hb, hby⟩ := exists_mem_of_forall₂ hparts hy
  refine h a ha b hb (s :: key) v w ?_ ?_
  · rwa [at?_cons, hax]
  · rwa [at?_cons, hby]

theorem conflicts_record (v w : Value) :
    conflicts (Key.record v) (Key.record w) = conflicts v w := by
  cases v <;> cases w <;> rfl

theorem conflictFree_iff {values : List Value} (hvalues : ∀ v ∈ values, v.IsDocument) :
    ConflictFree values ↔
      ∀ a ∈ values, ∀ b ∈ values, ∀ m ∈ Key.nodes [] a, ∀ n ∈ Key.nodes [] b,
        m.1 = n.1 → conflicts m.2 n.2 = false := by
  constructor
  · rintro h a ha b hb ⟨key, r⟩ hm ⟨key', r'⟩ hn rfl
    obtain ⟨v, hv, rfl⟩ := (Key.mem_nodes_iff (hvalues a ha)).mp hm
    obtain ⟨w, hw, rfl⟩ := (Key.mem_nodes_iff (hvalues b hb)).mp hn
    rw [conflicts_record]
    exact h a ha b hb key v w hv hw
  · intro h a ha b hb key v w hv hw
    have hm := (Key.mem_nodes_iff (hvalues a ha)).mpr ⟨v, hv, rfl⟩
    have hn := (Key.mem_nodes_iff (hvalues b hb)).mpr ⟨w, hw, rfl⟩
    rw [← conflicts_record]
    exact h a ha b hb _ hm _ hn rfl

/-! ### The members of a merge of merges -/

section Items

variable {xs ys zs : List Value}

theorem mergeItems_self (h : ∀ x ∈ xs, merge x x = x) : mergeItems xs xs = xs := by
  refine List.ext_getElem? fun i => ?_
  rw [getElem?_mergeItems]
  exact optionMerge_self fun x hx => h x (List.mem_of_getElem? hx)

theorem mergeItems_again (hself : ∀ y ∈ ys, merge y y = y)
    (h : ∀ (i : Nat) (x y : Value), xs[i]? = some x → ys[i]? = some y →
      merge (merge x y) y = merge x y) :
    mergeItems (mergeItems xs ys) ys = mergeItems xs ys := by
  refine List.ext_getElem? fun i => ?_
  simp only [getElem?_mergeItems]
  exact optionMerge_again (fun y hy => hself y (List.mem_of_getElem? hy)) fun x hx y hy =>
    h i x y hx hy

theorem mergeItems_assoc
    (h : ∀ (i : Nat) (x y z : Value), xs[i]? = some x → ys[i]? = some y → zs[i]? = some z →
      merge (merge x y) z = merge x (merge y z)) :
    mergeItems (mergeItems xs ys) zs = mergeItems xs (mergeItems ys zs) := by
  refine List.ext_getElem? fun i => ?_
  simp only [getElem?_mergeItems]
  exact optionMerge_assoc fun x hx y hy z hz => h i x y z hx hy hz

end Items

section Entries

variable {es fs gs : Entries Value}

theorem nodup_keys_mergeEntries (hes : (Entries.keys es).Nodup) (hfs : (Entries.keys fs).Nodup) :
    (Entries.keys (mergeEntries es fs)).Nodup := by
  rw [keys_mergeEntries hfs, List.nodup_append]
  refine ⟨hes, hfs.filter _, fun key hkey other hother => ?_⟩
  rintro rfl
  exact of_decide_eq_true (List.mem_filter.mp hother).2 hkey

theorem keys_mergeEntries_of_subset (hfs : (Entries.keys fs).Nodup)
    (hsubset : ∀ key ∈ Entries.keys fs, key ∈ Entries.keys es) :
    Entries.keys (mergeEntries es fs) = Entries.keys es := by
  rw [keys_mergeEntries hfs, List.append_right_eq_self, List.filter_eq_nil_iff]
  intro key hkey
  simpa using hsubset key hkey

theorem mergeEntries_self (hes : (Entries.keys es).Nodup)
    (h : ∀ e ∈ es, merge e.2 e.2 = e.2) : mergeEntries es es = es := by
  refine Entries.eq_of_find?_eq (nodup_keys_mergeEntries hes hes)
    (keys_mergeEntries_of_subset hes fun _ => id) fun key => ?_
  rw [find?_mergeEntries hes]
  exact optionMerge_self fun v hv => h _ (Entries.mem_of_find? hv)

theorem mergeEntries_again (hes : (Entries.keys es).Nodup) (hfs : (Entries.keys fs).Nodup)
    (hself : ∀ f ∈ fs, merge f.2 f.2 = f.2)
    (h : ∀ (key : String) (x y : Value), Entries.find? es key = some x →
      Entries.find? fs key = some y → merge (merge x y) y = merge x y) :
    mergeEntries (mergeEntries es fs) fs = mergeEntries es fs := by
  refine Entries.eq_of_find?_eq (nodup_keys_mergeEntries (nodup_keys_mergeEntries hes hfs) hfs)
    (keys_mergeEntries_of_subset hfs fun key hkey => ?_) fun key => ?_
  · by_cases hold : key ∈ Entries.keys es <;> simp [keys_mergeEntries hfs, hold, hkey]
  · simp only [find?_mergeEntries hfs]
    exact optionMerge_again (fun y hy => hself _ (Entries.mem_of_find? hy)) fun x hx y hy =>
      h key x y hx hy

theorem mergeEntries_assoc (hes : (Entries.keys es).Nodup) (hfs : (Entries.keys fs).Nodup)
    (hgs : (Entries.keys gs).Nodup)
    (h : ∀ (key : String) (x y z : Value), Entries.find? es key = some x →
      Entries.find? fs key = some y → Entries.find? gs key = some z →
      merge (merge x y) z = merge x (merge y z)) :
    mergeEntries (mergeEntries es fs) gs = mergeEntries es (mergeEntries fs gs) := by
  have hright := nodup_keys_mergeEntries hfs hgs
  refine Entries.eq_of_find?_eq (nodup_keys_mergeEntries (nodup_keys_mergeEntries hes hfs) hgs)
    ?_ fun key => ?_
  · -- A key of the third object comes behind those of the first two that have it.
    simp only [keys_mergeEntries hgs, keys_mergeEntries hfs, keys_mergeEntries hright,
      List.filter_append, List.filter_filter, List.append_assoc]
    congr 2
    refine List.filter_congr fun key _ => ?_
    by_cases hkey : key ∈ Entries.keys es <;> simp [hkey]
  · simp only [find?_mergeEntries hgs, find?_mergeEntries hfs, find?_mergeEntries hright]
    exact optionMerge_assoc fun x hx y hy z hz => h key x y z hx hy hz

end Entries

/-! ### Laws -/

section Laws

variable {a b c : Value}

theorem merge_self (ha : a.IsDocument) : merge a a = a := by
  induction ha with
  | array items hitems ih => rw [merge, mergeItems_self ih]
  | object entries hkeys hentries ih => rw [merge, mergeEntries_self hkeys ih]
  | _ => rfl

theorem merge_again (ha : a.IsDocument) (hb : b.IsDocument) :
    merge (merge a b) b = merge a b := by
  induction hb using IsDocument.induction_child generalizing a with
  | parent b hb ih =>
      rcases merge_cases a b with rfl | hsame | hreplaced
      · rw [merge_null]
      · cases hsame with
        | array xs ys =>
            simp only [merge]
            rw [mergeItems_again fun y hy => merge_self (hb.of_mem_items y hy)]
            intro i x y hx hy
            rw [← child?_array] at hx hy
            exact ih _ y hy (ha.child? hx)
        | object es fs =>
            simp only [merge]
            rw [mergeEntries_again ha.nodup_keys hb.nodup_keys
              fun f hf => merge_self (hb.of_mem_entries f hf)]
            intro key x y hx hy
            exact ih (.ident key) y hy (ha.child? (s := .ident key) hx)
      · rw [hreplaced, merge_self hb]

/-- The third document decides: where it is a container, the other two are null or containers of
its kind. -/
theorem merge_assoc (ha : a.IsDocument) (hb : b.IsDocument) (hc : c.IsDocument)
    (h : ConflictFree [a, b, c]) : merge (merge a b) c = merge a (merge b c) := by
  induction ha using IsDocument.induction_child generalizing b c with
  | parent a ha ih =>
      have hbelow : ∀ s x y z, a.child? s = some x → b.child? s = some y → c.child? s = some z →
          merge (merge x y) z = merge x (merge y z) := fun s x y z hx hy hz =>
        ih s x hx (hb.child? hy) (hc.child? hz)
          (h.below (.cons hx (.cons hy (.cons hz .nil))))
      by_cases hnull : c = null
      · rw [hnull, merge_null, merge_null]
      cases hscalar : c.isScalar with
      | true => simp only [merge_of_isScalar hscalar hnull]
      | false =>
          have hroot : ∀ v ∈ [a, b, c], conflicts c v = false := fun v hv =>
            h c (by simp) v hv [] c v rfl rfl
          rcases eq_null_or_sameContainer (hroot b (by simp)) hscalar with rfl | hcb
          · rw [merge_null, null_merge]
          rcases eq_null_or_sameContainer (hroot a (by simp)) hscalar with rfl | hca
          · rw [null_merge, null_merge]
          cases hcb with
          | array zs ys =>
              cases hca with
              | array _ xs =>
                  simp only [merge]
                  rw [mergeItems_assoc]
                  intro i x y z hx hy hz
                  rw [← child?_array] at hx hy hz
                  exact hbelow _ x y z hx hy hz
          | object gs fs =>
              cases hca with
              | object _ es =>
                  simp only [merge]
                  rw [mergeEntries_assoc ha.nodup_keys hb.nodup_keys hc.nodup_keys]
                  intro key x y z hx hy hz
                  exact hbelow (.ident key) x y z hx hy hz

end Laws

/-- Null is neutral on both sides; a document that is merged with itself, or merged in a second
time, changes nothing; and merges can be grouped in both ways if at no place a container meets a
scalar other than null or a container of the other kind. -/
theorem merge_laws :
    (∀ v : Value, merge null v = v ∧ merge v null = v) ∧
    (∀ a : Value, a.IsDocument → merge a a = a) ∧
    (∀ a b : Value, a.IsDocument → b.IsDocument → merge (merge a b) b = merge a b) ∧
    ∀ a b c : Value, a.IsDocument → b.IsDocument → c.IsDocument → ConflictFree [a, b, c] →
      merge (merge a b) c = merge a (merge b c) :=
  ⟨fun v => ⟨null_merge v, merge_null v⟩, fun _ => merge_self, fun _ _ => merge_again,
    fun _ _ _ => merge_assoc⟩

def lowerLayer : Value :=
  object [("list", array [null, object [("x", bool true)]]), ("gone", null)]

def middleLayer : Value :=
  object [("list", array [bool false]), ("new", object [("y", string "s")])]

/-- Its array is the longest of the three, and each of its nulls stands where another layer has
something. -/
def upperLayer : Value :=
  object [("new", object [("y", null), ("z", null)]), ("gone", string "back"),
    ("list", array [null, object [("x", null)], null])]

theorem isDocument_layers : ∀ v ∈ [lowerLayer, middleLayer, upperLayer], v.IsDocument := by
  have hlist : (array [null, object [("x", bool true)]]).IsDocument :=
    .array _ (by simpa using ⟨.null, .object _ (by decide) (by simpa using .bool true)⟩)
  have hnew : (object [("y", string "s")]).IsDocument :=
    .object _ (by decide) (by simpa using .string "s")
  have hnulls : (object [("y", null), ("z", null)]).IsDocument :=
    .object _ (by decide) (by simpa using .null)
  have hlonger : (array [null, object [("x", null)], null]).IsDocument :=
    .array _ (by simpa using ⟨.null, .object _ (by decide) (by simpa using .null), .null⟩)
  have hlower : lowerLayer.IsDocument :=
    .object _ (by decide) (by simpa using ⟨hlist, .null⟩)
  have hmiddle : middleLayer.IsDocument :=
    .object _ (by decide) (by simpa using ⟨.array _ (by simpa using .bool false), hnew⟩)
  have hupper : upperLayer.IsDocument :=
    .object _ (by decide) (by simpa using ⟨hnulls, .string "back", hlonger⟩)
  simpa using ⟨hlower, hmiddle, hupper⟩

theorem merge_laws_layers :
    ConflictFree [lowerLayer, middleLayer, upperLayer] ∧
      merge lowerLayer lowerLayer = lowerLayer ∧
      merge (merge lowerLayer upperLayer) upperLayer = merge lowerLayer upperLayer ∧
      merge (merge lowerLayer middleLayer) upperLayer =
        merge lowerLayer (merge middleLayer upperLayer) := by
  have hfree : ConflictFree [lowerLayer, middleLayer, upperLayer] :=
    (conflictFree_iff isDocument_layers).mpr (by decide)
  obtain ⟨hlower, hmiddle, hupper⟩ : lowerLayer.IsDocument ∧ middleLayer.IsDocument ∧
      upperLayer.IsDocument := by simpa using isDocument_layers
  exact ⟨hfree, merge_laws.2.1 _ hlower, merge_laws.2.2.1 _ _ hlower hupper,
    merge_laws.2.2.2 _ _ _ hlower hmiddle hupper hfree⟩

/-- With a conflict the grouping matters: the scalar in the middle covers what is below it, or is
itself covered first. -/
example : merge (merge (object [("x", null)]) (bool true)) (object [("y", null)]) =
      object [("y", null)] ∧
    merge (object [("x", null)]) (merge (bool true) (object [("y", null)])) =
      object [("x", null), ("y", null)] :=
  ⟨rfl, rfl⟩

/-! ### The elements of an array -/

section Elements

theorem merge_array_nil {v : Value} (hv : v ≠ null) : merge (array []) v = v := by
  cases v with
  | null => exact absurd rfl hv
  | array ys => rw [merge, mergeItems_nil]
  | _ => rfl

theorem mergeAll_eq_first {more : List Value} (h : ∀ v ∈ more, v = null) (first : Value) :
    mergeAll first more = first := by
  rw [mergeAll]
  exact List.foldlRecOn (motive := (· = first)) more merge rfl fun w hw v hv => by
    rw [h v hv, merge_null, hw]

theorem mergeAll_array_nil {vs : List Value} (h : ∃ v ∈ vs, v ≠ null) :
    mergeAll (array []) vs = mergeAll null vs := by
  induction vs with
  | nil => simp at h
  | cons v vs ih =>
      by_cases hv : v = null
      · have hrest : ∃ w ∈ vs, w ≠ null := by simpa [hv] using h
        simpa [mergeAll, hv] using ih hrest
      · simp [mergeAll, merge_array_nil hv]

/-- The elements of an array are merged from left to right unless all of them are null. These
leave the empty array, though they merge to null. -/
theorem apply_deepMerge_iff (first : Value) (more : List Value) :
    (Operation.deepMerge.apply (array (first :: more)) = .ok (mergeAll first more) ↔
      ∃ v ∈ first :: more, v ≠ null) ∧
    (Operation.deepMerge.apply (array (first :: more)) = .ok (array []) ∧
      mergeAll first more = null ↔ ∀ v ∈ first :: more, v = null) := by
  have hfirst : mergeAll null (first :: more) = mergeAll first more := by
    rw [mergeAll, List.foldl_cons, null_merge, mergeAll]
  have happly : Operation.deepMerge.apply (array (first :: more)) =
      .ok (mergeAll (array []) (first :: more)) := rfl
  rw [happly]
  by_cases h : ∃ v ∈ first :: more, v ≠ null
  · rw [mergeAll_array_nil h, hfirst]
    obtain ⟨v, hv, hne⟩ := h
    refine ⟨iff_of_true rfl ⟨v, hv, hne⟩, iff_of_false ?_ fun hall => hne (hall v hv)⟩
    rintro ⟨harray, hnull⟩
    rw [hnull] at harray
    cases harray
  · have hall : ∀ v ∈ first :: more, v = null := by simpa using h
    obtain ⟨rfl, hmore⟩ := List.forall_mem_cons.mp hall
    rw [mergeAll_eq_first hall, mergeAll_eq_first hmore]
    exact ⟨iff_of_false nofun h, iff_of_true ⟨rfl, rfl⟩ hall⟩

theorem apply_deepMerge_null :
    ¬ Operation.deepMerge.apply (array [null]) = .ok (mergeAll null []) := by
  intro h
  cases h

end Elements

end Value

end Reshape
