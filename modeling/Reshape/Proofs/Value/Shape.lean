import Mathlib.Data.List.InsertIdx
import Reshape.Proofs.Value.Merge
import Reshape.Proofs.Value.Numbers
import Reshape.Value.Shape

namespace Reshape.Value

variable {P : Number → Prop} {v w : Value}

theorem IsOver.items (hv : v.IsOver P) : ∀ w ∈ v.items, w.IsOver P := by
  have hsame := hv
  cases hv with
  | array hitems => exact hitems
  | _ => exact List.forall_mem_singleton.mpr hsame

theorem IsOver.flatten (hv : v.IsOver P) : v.flatten.IsOver P := by
  unfold Value.flatten
  split
  · exact isOver_array_iff.mp hv _ List.mem_cons_self
  · refine .array fun w hw => ?_
    obtain ⟨u, hu, hw⟩ := List.mem_flatMap.mp hw
    exact (isOver_array_iff.mp hv u hu).items w hw
  · exact (isOver_object_iff.mp hv).2 _ List.mem_cons_self
  · exact hv

theorem exists_of_mem_withoutEmptyItems {vs : List Value} (h : w ∈ withoutEmptyItems vs) :
    ∃ v ∈ vs, w = v.withoutEmpty := by
  induction vs with
  | nil => cases h
  | cons v vs ih =>
      rw [withoutEmptyItems] at h
      split at h
      · obtain ⟨u, hu, hw⟩ := ih h
        exact ⟨u, List.mem_cons_of_mem v hu, hw⟩
      · rcases List.mem_cons.mp h with hw | h
        · exact ⟨v, List.mem_cons_self, hw⟩
        · obtain ⟨u, hu, hw⟩ := ih h
          exact ⟨u, List.mem_cons_of_mem v hu, hw⟩

theorem withoutEmptyEntries_sublist (entries : List (String × Value)) :
    (withoutEmptyEntries entries).Sublist (entries.map fun e => (e.1, e.2.withoutEmpty)) := by
  induction entries with
  | nil => exact .slnil
  | cons e rest ih =>
      rw [withoutEmptyEntries]
      split
      · exact ih.cons _
      · exact ih.cons_cons _

theorem IsOver.withoutEmpty (hv : v.IsOver P) : v.withoutEmpty.IsOver P := by
  induction hv with
  | array _ ih =>
      rw [Value.withoutEmpty]
      refine .array fun w hw => ?_
      obtain ⟨u, hu, rfl⟩ := exists_of_mem_withoutEmptyItems hw
      exact ih u hu
  | @object entries hkeys _ ih =>
      rw [Value.withoutEmpty]
      have hsublist := withoutEmptyEntries_sublist entries
      refine .object ?_ fun e he => ?_
      · have h := hsublist.map Prod.fst
        rw [List.map_map] at h
        exact h.nodup hkeys
      · obtain ⟨d, hd, rfl⟩ := List.mem_map.mp (hsublist.mem he)
        exact ih d hd
  | null => exact .null
  | bool b => exact .bool b
  | number hn => exact .number hn
  | string s => exact .string s

theorem mergeItems_isOver {xs ys : List Value} (hxs : ∀ x ∈ xs, x.IsOver P)
    (hmerge : ∀ y ∈ ys, ∀ x : Value, x.IsOver P → (merge x y).IsOver P) :
    ∀ z ∈ mergeItems xs ys, z.IsOver P := by
  induction ys generalizing xs with
  | nil =>
      cases xs <;> exact hxs
  | cons y ys ih =>
      obtain ⟨hy, hys⟩ := List.forall_mem_cons.mp hmerge
      cases xs with
      | nil => exact List.forall_mem_cons.mpr ⟨hy null .null, ih hxs hys⟩
      | cons x xs =>
          obtain ⟨hx, hxs⟩ := List.forall_mem_cons.mp hxs
          exact List.forall_mem_cons.mpr ⟨hy x hx, ih hxs hys⟩

theorem mergeEntries_isOver {es fs : List (String × Value)} (hes : (object es).IsOver P)
    (hmerge : ∀ f ∈ fs, ∀ x : Value, x.IsOver P → (merge x f.2).IsOver P) :
    (object (mergeEntries es fs)).IsOver P := by
  induction fs generalizing es with
  | nil => exact hes
  | cons f fs ih =>
      obtain ⟨key, y⟩ := f
      obtain ⟨hkeys, hentries⟩ := isOver_object_iff.mp hes
      obtain ⟨hy, hfs⟩ := List.forall_mem_cons.mp hmerge
      rw [mergeEntries]
      split
      · rename_i x hfind
        have hx : x.IsOver P := hentries _ (Entries.mem_of_find? hfind)
        refine ih (.object (Entries.nodup_keys_insert hkeys key _) ?_) hfs
        exact Entries.forall_mem_insert hentries (hy x hx)
      · rename_i hfind
        have hnew := Entries.find?_eq_none_iff.mp hfind
        rw [← Entries.insert_of_notMem y hnew]
        refine ih (.object (Entries.nodup_keys_insert hkeys key y) ?_) hfs
        rw [← null_merge y]
        exact Entries.forall_mem_insert hentries (hy null .null)

/-- The merge is by recursion on the right document. -/
theorem IsOver.merge (hv : v.IsOver P) (hw : w.IsOver P) : (merge v w).IsOver P := by
  induction hw generalizing v with
  | array hys ih =>
      cases hv with
      | array hxs => exact .array (mergeItems_isOver hxs fun y hy x hx => ih y hy hx)
      | _ => exact .array hys
  | object hkeys hentries ih =>
      cases hv with
      | object hes hvalues =>
          exact mergeEntries_isOver (.object hes hvalues) fun f hf x hx => ih f hf hx
      | _ => exact .object hkeys hentries
  | null => rwa [merge_null]
  | bool b => cases hv <;> exact .bool b
  | number hn => cases hv <;> exact .number hn
  | string s => cases hv <;> exact .string s

theorem IsOver.mergeElements (hv : v.IsOver P) : v.mergeElements.IsOver P := by
  have hsame := hv
  cases hv with
  | array hitems =>
      refine List.foldlRecOn _ _ (.array nofun) ?_
      intro first hfirst w hw
      exact hfirst.merge (hitems w hw)
  | _ => exact hsame

theorem keysArray_isOver (v : Value) : v.keysArray.IsOver P := by
  cases v with
  | object entries =>
      refine .array fun w hw => ?_
      obtain ⟨e, -, rfl⟩ := List.mem_map.mp hw
      exact .string e.1
  | _ => exact .array nofun

theorem IsOver.membersArray (hv : v.IsOver P) : v.membersArray.IsOver P := by
  cases hv with
  | object _ hentries =>
      refine .array fun w hw => ?_
      obtain ⟨e, he, rfl⟩ := List.mem_map.mp hw
      exact hentries e he
  | array hitems => exact .array hitems
  | _ => exact .array nofun

theorem index_eq_of_repr_eq {i j : Nat} (h : Nat.repr i = Nat.repr j) : i = j := by
  rw [Nat.repr_eq_ofList_toDigits, Nat.repr_eq_ofList_toDigits, String.ofList_inj] at h
  calc i
    _ = Nat.ofDigitChars 10 (Nat.toDigits 10 i) 0 :=
      (Nat.ofDigitChars_toDigits (by decide) (by decide)).symm
    _ = Nat.ofDigitChars 10 (Nat.toDigits 10 j) 0 := by rw [h]
    _ = j := Nat.ofDigitChars_toDigits (by decide) (by decide)

theorem indexedEntries_eq_map (index : Nat) (vs : List Value) :
    indexedEntries index vs =
      (vs.zipIdx index).map fun element => (Nat.repr element.2, element.1.arraysToObjects) := by
  induction vs generalizing index with
  | nil => rfl
  | cons v vs ih => rw [indexedEntries, ih, List.zipIdx_cons, List.map_cons]

theorem arraysToObjectsIn_eq_map (entries : List (String × Value)) :
    arraysToObjectsIn entries = entries.map fun e => (e.1, e.2.arraysToObjects) := by
  induction entries with
  | nil => rfl
  | cons e rest ih => rw [arraysToObjectsIn, ih, List.map_cons]

theorem IsOver.arraysToObjects (hv : v.IsOver P) : v.arraysToObjects.IsOver P := by
  induction hv with
  | @array items _ ih =>
      rw [Value.arraysToObjects, indexedEntries_eq_map]
      refine .object ?_ fun e he => ?_
      · have hindices : (((items.zipIdx 0).map Prod.snd).map Nat.repr).Nodup := by
          rw [List.zipIdx_map_snd]
          exact List.Nodup.map (fun _ _ => index_eq_of_repr_eq) List.nodup_range'
        rw [List.map_map] at hindices
        rwa [Entries.keys, List.map_map]
      · obtain ⟨element, hmem, rfl⟩ := List.mem_map.mp he
        exact ih _ (List.fst_mem_of_mem_zipIdx hmem)
  | @object entries hkeys _ ih =>
      rw [Value.arraysToObjects, arraysToObjectsIn_eq_map]
      refine .object ?_ fun e he => ?_
      · rwa [Entries.keys, List.map_map]
      · obtain ⟨d, hd, rfl⟩ := List.mem_map.mp he
        exact ih d hd
  | null => exact .null
  | bool b => exact .bool b
  | number hn => exact .number hn
  | string s => exact .string s

theorem IsOver.insertElement (hv : v.IsOver P) (index : Nat) (hw : w.IsOver P) :
    (v.insertElement index w).IsOver P := by
  have hsame := hv
  cases hv with
  | array hitems =>
      refine .array fun u hu => ?_
      rcases List.eq_or_mem_of_mem_insertIdx hu with rfl | hu
      · exact hw
      · exact hitems u hu
  | _ => exact hsame

theorem IsOver.insertEntry (hv : v.IsOver P) (key : String) (hw : w.IsOver P) :
    (v.insertEntry key w).IsOver P := by
  have hsame := hv
  cases hv with
  | object hkeys hentries =>
      exact .object (Entries.nodup_keys_insert hkeys key w)
        (Entries.forall_mem_insert hentries hw)
  | _ => exact hsame

end Reshape.Value
