import Reshape.Proofs.Value.Document
import Reshape.Value.Merge

namespace Reshape.Value

@[simp] theorem merge_null (v : Value) : merge v null = v := by
  cases v <;> rfl

@[simp] theorem null_merge (v : Value) : merge null v = v := by
  cases v <;> rfl

theorem mergeItems_nil (ys : List Value) : mergeItems [] ys = ys := by
  induction ys with
  | nil => rfl
  | cons y ys ih => rw [mergeItems, ih, null_merge]

theorem length_mergeItems (xs ys : List Value) :
    (mergeItems xs ys).length = max xs.length ys.length := by
  induction xs generalizing ys with
  | nil => simp [mergeItems_nil]
  | cons x xs ih =>
      cases ys with
      | nil => simp [mergeItems]
      | cons y ys => simp [mergeItems, ih, Nat.succ_max_succ]

theorem getD_mergeItems (xs ys : List Value) (i : Nat) :
    (mergeItems xs ys)[i]?.getD null = merge (xs[i]?.getD null) (ys[i]?.getD null) := by
  induction xs generalizing ys i with
  | nil => simp [mergeItems_nil]
  | cons x xs ih =>
      cases ys with
      | nil => simp [mergeItems]
      | cons y ys =>
          cases i with
          | zero => simp [mergeItems]
          | succ i => simpa [mergeItems] using ih ys i

theorem mergeEntries_cons (es : Entries Value) (k : String) (w : Value) (fs : Entries Value) :
    mergeEntries es ((k, w) :: fs) =
      mergeEntries (Entries.insert es k (merge ((Entries.find? es k).getD null) w)) fs := by
  rw [mergeEntries]
  cases hfind : Entries.find? es k with
  | none =>
      rw [Entries.insert_of_notMem _ (Entries.find?_eq_none_iff.mp hfind)]
      simp
  | some v => simp

theorem mergeEntries_singleton (es : Entries Value) (k : String) (w : Value) :
    mergeEntries es [(k, w)] =
      Entries.insert es k (merge ((Entries.find? es k).getD null) w) := by
  rw [mergeEntries_cons, mergeEntries]

theorem getElem?_mergeItems (xs ys : List Value) (i : Nat) :
    (mergeItems xs ys)[i]? = Option.merge merge xs[i]? ys[i]? := by
  induction xs generalizing ys i with
  | nil => simp [mergeItems_nil]
  | cons x xs ih =>
      cases ys with
      | nil => simp [mergeItems]
      | cons y ys =>
          cases i with
          | zero => simp [mergeItems]
          | succ i => simpa [mergeItems] using ih ys i

theorem find?_mergeEntries {es fs : Entries Value} (hfs : (Entries.keys fs).Nodup) (k : String) :
    Entries.find? (mergeEntries es fs) k =
      Option.merge merge (Entries.find? es k) (Entries.find? fs k) := by
  induction fs generalizing es with
  | nil => simp [mergeEntries, Entries.find?]
  | cons f rest ih =>
      obtain ⟨l, w⟩ := f
      obtain ⟨hnotMem, hrest⟩ := List.nodup_cons.mp hfs
      rw [mergeEntries_cons, ih hrest, Entries.find?_insert, Entries.find?]
      by_cases hlk : l = k
      · have hnone : Entries.find? rest k = none :=
          Entries.find?_eq_none_iff.mpr (hlk ▸ hnotMem)
        rw [if_pos hlk.symm, if_pos hlk, hnone, hlk]
        cases Entries.find? es k <;> simp
      · rw [if_neg (Ne.symm hlk), if_neg hlk]

/-- The keys of the left object come first, in their order. -/
theorem keys_mergeEntries {es fs : Entries Value} (hfs : (Entries.keys fs).Nodup) :
    Entries.keys (mergeEntries es fs) =
      Entries.keys es ++ (Entries.keys fs).filter (· ∉ Entries.keys es) := by
  induction fs generalizing es with
  | nil => simp [mergeEntries, Entries.keys]
  | cons f rest ih =>
      obtain ⟨l, w⟩ := f
      obtain ⟨hnotMem, hrest⟩ := List.nodup_cons.mp hfs
      rw [mergeEntries_cons, ih hrest, Entries.keys_cons, List.filter_cons]
      by_cases hold : l ∈ Entries.keys es
      · rw [Entries.keys_insert_of_mem _ hold, if_neg (by simpa using hold)]
      · -- No later entry has the key that is new.
        have hfilter : (Entries.keys rest).filter (· ∉ Entries.keys es ++ [l]) =
            (Entries.keys rest).filter (· ∉ Entries.keys es) := by
          refine List.filter_congr fun key hkey => ?_
          have hne : key ≠ l := fun heq => hnotMem (heq ▸ hkey)
          simp [hne]
        rw [Entries.keys_insert_of_notMem _ hold, hfilter, if_pos (by simpa using hold),
          List.append_assoc, List.singleton_append]

end Reshape.Value
