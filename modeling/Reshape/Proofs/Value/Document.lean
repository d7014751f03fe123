import Mathlib.Data.List.Forall2
import Reshape.Proofs.Value.Entries
import Reshape.Value.Equal

namespace Reshape

theorem Number.equal_self (n : Number) : n.equal n = true := by
  cases n <;> simp [Number.equal]

namespace Value

/-- No object has a key twice, and no part is a bare number. This is what every caller
promises. -/
inductive IsDocument : Value → Prop
  | null : IsDocument null
  | bool (b : Bool) : IsDocument (bool b)
  | number (n : Number) : IsDocument (number n)
  | string (s : String) : IsDocument (string s)
  | array (items : List Value) (hitems : ∀ v ∈ items, IsDocument v) : IsDocument (array items)
  | object (entries : Entries Value) (hkeys : (Entries.keys entries).Nodup)
      (hentries : ∀ e ∈ entries, IsDocument e.2) : IsDocument (object entries)

theorem IsDocument.of_mem_items {items : List Value} (h : (Value.array items).IsDocument) :
    ∀ v ∈ items, v.IsDocument := by
  cases h with
  | array _ hitems => exact hitems

theorem IsDocument.of_mem_entries {entries : Entries Value}
    (h : (Value.object entries).IsDocument) : ∀ e ∈ entries, e.2.IsDocument := by
  cases h with
  | object _ _ hentries => exact hentries

theorem IsDocument.nodup_keys {entries : Entries Value} (h : (Value.object entries).IsDocument) :
    (Entries.keys entries).Nodup := by
  cases h with
  | object _ hkeys _ => exact hkeys

theorem IsDocument.members {entries : Entries Value} (h : (Value.object entries).IsDocument) :
    (Value.array (entries.map Prod.snd)).IsDocument :=
  .array _ (List.forall_mem_map.mpr h.of_mem_entries)

theorem equalItems_iff {xs ys : List Value} :
    equalItems xs ys = true ↔ List.Forall₂ (fun x y => equal x y = true) xs ys := by
  induction xs generalizing ys with
  | nil => cases ys <;> simp [equalItems]
  | cons x xs ih => cases ys <;> simp [equalItems, ih]

theorem equalItems_of_getElem? {xs ys : List Value} (hlength : xs.length = ys.length)
    (hequal : ∀ (i : Nat) (x y : Value), xs[i]? = some x → ys[i]? = some y → equal x y = true) :
    equalItems xs ys = true := by
  induction xs generalizing ys with
  | nil =>
      rw [List.eq_nil_of_length_eq_zero hlength.symm]
      rfl
  | cons x xs ih =>
      cases ys with
      | nil => cases hlength
      | cons y ys =>
          rw [equalItems, Bool.and_eq_true]
          refine ⟨hequal 0 x y rfl rfl, ih (by simpa using hlength) ?_⟩
          intro i x' y' hx hy
          exact hequal (i + 1) x' y' hx hy

theorem entriesWithin_iff {es fs : List (String × Value)} :
    entriesWithin es fs = true ↔
      ∀ e ∈ es, ∃ w, Entries.find? fs e.1 = some w ∧ equal e.2 w = true := by
  induction es with
  | nil => simp [entriesWithin]
  | cons e rest ih =>
      obtain ⟨k, v⟩ := e
      rw [entriesWithin, Bool.and_eq_true, ih, List.forall_mem_cons]
      refine and_congr_left fun _ => ?_
      cases Entries.find? fs k <;> simp

theorem equal_object_of_find? {es fs : Entries Value} (hes : (Entries.keys es).Nodup)
    (hfs : (Entries.keys fs).Nodup)
    (hkeys : ∀ key, key ∈ Entries.keys es ↔ key ∈ Entries.keys fs)
    (hequal : ∀ (key : String) (v w : Value), Entries.find? es key = some v →
      Entries.find? fs key = some w → equal v w = true) :
    equal (object es) (object fs) = true := by
  rw [equal, Bool.and_eq_true, beq_iff_eq, entriesWithin_iff]
  refine ⟨Entries.length_eq_of_mem_keys_iff hes hfs hkeys, ?_⟩
  intro e he
  have hmem : e.1 ∈ Entries.keys fs := (hkeys e.1).mp (List.mem_map_of_mem he)
  obtain ⟨w, hw⟩ := Option.isSome_iff_exists.mp (Entries.isSome_find?_iff.mpr hmem)
  exact ⟨w, hw, hequal e.1 e.2 w (Entries.find?_of_mem hes he) hw⟩

theorem IsDocument.equal_self {v : Value} (hv : v.IsDocument) : v.equal v = true := by
  induction hv with
  | null => rfl
  | bool b => simp [equal]
  | number n => rw [equal, n.equal_self]
  | string s => simp [equal]
  | array items hitems ih =>
      rw [equal]
      refine equalItems_of_getElem? rfl fun i x y hx hy => ?_
      rw [Option.some.inj (hx.symm.trans hy)]
      exact ih y (List.mem_of_getElem? hy)
  | object entries hkeys hentries ih =>
      refine equal_object_of_find? hkeys hkeys (fun key => .rfl) fun key v w hv hw => ?_
      rw [Option.some.inj (hv.symm.trans hw)]
      exact ih _ (Entries.mem_of_find? hw)

end Value

end Reshape
