import Mathlib.Data.List.Perm.Subperm
import Reshape.Proofs.Related
import Reshape.Proofs.Value.Document
import Reshape.Value.Hash

/-!
Equality and hashes of documents. Of the documents that are equal to one another, one has its keys
in ascending order and no negative zero. Main statements: `equal_iff_canonical_eq`, that documents
are equal if they share it, and `equal_equivalence_and_hash_eq`, that equality is an equivalence
and that equal documents have equal hashes.
-/

namespace Reshape

/-! ### Numbers -/

/-- The positive zero in place of the negative one. -/
def Double.canonical (x : Double) : Double :=
  if x.isZero then zero false else x

theorem Double.ordinal_eq_iff_canonical_eq {x y : Double} :
    x.ordinal = y.ordinal ↔ x.canonical = y.canonical := by
  obtain ⟨s, m, hm⟩ := x
  obtain ⟨t, n, hn⟩ := y
  rw [canonical, canonical, isZero, isZero, ordinal, ordinal]
  -- With different signs the places are the same for two zeros only.
  cases s <;> cases t <;> by_cases hx : m = 0 <;> by_cases hy : n = 0 <;>
    simp [hx, hy, zero] <;> omega

def Number.canonical : Number → Number
  | int i => int i
  | float x => float x.canonical

theorem Number.equal_iff_canonical_eq {m n : Number} :
    m.equal n = true ↔ m.canonical = n.canonical := by
  cases m with
  | int i => cases n <;> simp [equal, canonical]
  | float x => cases n <;> simp [equal, canonical, Double.ordinal_eq_iff_canonical_eq]

theorem Entries.sorted_eq_iff_perm {α : Type} {entries others : Entries α}
    (hkeys : (keys entries).Nodup) :
    sorted entries = sorted others ↔ entries.Perm others := by
  constructor
  · intro h
    exact (sorted_perm entries).symm.trans (h ▸ sorted_perm others)
  · exact sorted_eq_of_perm hkeys

namespace Value

theorem Hashing.number_canonical {H : Type} (h : Hashing H) (n : Number) :
    h.number n.canonical = h.number n := by
  cases n with
  | int i => rfl
  | float x =>
      have hplain : (Double.zero false).isZero = true := rfl
      by_cases hzero : x.isZero = true
      · simp [number, Number.canonical, Double.canonical, hzero, hplain]
      · simp [Number.canonical, Double.canonical, hzero]

/-! ### Documents -/

mutual

/-- The document with the keys of its objects in ascending order and with no negative zero. -/
def canonical : Value → Value
  | number n => number n.canonical
  | array items => array (canonicalItems items)
  | object entries => object (Entries.sorted (canonicalEntries entries))
  | v => v

def canonicalItems : List Value → List Value
  | [] => []
  | v :: vs => canonical v :: canonicalItems vs

def canonicalEntries : List (String × Value) → List (String × Value)
  | [] => []
  | (k, v) :: rest => (k, canonical v) :: canonicalEntries rest

end

theorem canonicalItems_eq_map (items : List Value) :
    canonicalItems items = items.map canonical := by
  induction items with
  | nil => rfl
  | cons v vs ih => rw [canonicalItems, ih, List.map_cons]

theorem canonicalEntries_eq_map (entries : Entries Value) :
    canonicalEntries entries = entries.map fun e => (e.1, e.2.canonical) := by
  induction entries with
  | nil => rfl
  | cons e rest ih => rw [canonicalEntries, ih, List.map_cons]

theorem keys_canonicalEntries (entries : Entries Value) :
    Entries.keys (canonicalEntries entries) = Entries.keys entries := by
  rw [canonicalEntries_eq_map, Entries.keys, List.map_map]
  rfl

theorem length_canonicalEntries (entries : Entries Value) :
    (canonicalEntries entries).length = entries.length := by
  rw [canonicalEntries_eq_map, List.length_map]

theorem nodup_canonicalEntries {entries : Entries Value} (h : (Entries.keys entries).Nodup) :
    (canonicalEntries entries).Nodup := by
  rw [← keys_canonicalEntries] at h
  exact h.of_map

/-- Equal values under a key are what the canonical entries have in common. -/
theorem entriesWithin_iff_subset {es fs : Entries Value} (hfs : (Entries.keys fs).Nodup)
    (h : ∀ e ∈ es, ∀ f ∈ fs, e.2.equal f.2 = true ↔ e.2.canonical = f.2.canonical) :
    entriesWithin es fs = true ↔ canonicalEntries es ⊆ canonicalEntries fs := by
  rw [entriesWithin_iff, canonicalEntries_eq_map, canonicalEntries_eq_map, List.subset_def,
    List.forall_mem_map]
  refine forall₂_congr fun e he => ?_
  rw [List.mem_map]
  constructor
  · rintro ⟨w, hw, hequal⟩
    have hf := Entries.mem_of_find? hw
    exact ⟨_, hf, Prod.ext rfl ((h e he _ hf).mp hequal).symm⟩
  · rintro ⟨f, hf, heq⟩
    obtain ⟨hkey, hvalue⟩ := Prod.mk.inj heq
    exact ⟨f.2, hkey ▸ Entries.find?_of_mem hfs hf, (h e he f hf).mpr hvalue.symm⟩

theorem equal_object_iff_perm {es fs : Entries Value} (hes : (Entries.keys es).Nodup)
    (hfs : (Entries.keys fs).Nodup)
    (h : ∀ e ∈ es, ∀ f ∈ fs, e.2.equal f.2 = true ↔ e.2.canonical = f.2.canonical) :
    equal (object es) (object fs) = true ↔ (canonicalEntries es).Perm (canonicalEntries fs) := by
  rw [equal, Bool.and_eq_true, beq_iff_eq, entriesWithin_iff_subset hfs h]
  constructor
  · rintro ⟨hlength, hsubset⟩
    refine ((nodup_canonicalEntries hes).subperm hsubset).perm_of_length_le ?_
    rw [length_canonicalEntries, length_canonicalEntries]
    exact Nat.le_of_eq hlength.symm
  · intro hperm
    have hlength := hperm.length_eq
    rw [length_canonicalEntries, length_canonicalEntries] at hlength
    exact ⟨hlength, hperm.subset⟩

/-- Documents are equal if they have one canonical form. -/
theorem equal_iff_canonical_eq {v w : Value} (hv : v.IsDocument) (hw : w.IsDocument) :
    v.equal w = true ↔ v.canonical = w.canonical := by
  induction hv generalizing w with
  | null => cases hw <;> simp [equal, canonical]
  | bool b => cases hw <;> simp [equal, canonical]
  | string s => cases hw <;> simp [equal, canonical]
  | number m => cases hw <;> simp [equal, canonical, Number.equal_iff_canonical_eq]
  | array xs _ ih =>
      cases hw with
      | array ys hys =>
          rw [equal, equalItems_iff, canonical, canonical, array.injEq, canonicalItems_eq_map,
            canonicalItems_eq_map, ← List.forall₂_eq_eq_eq, List.forall₂_map_left_iff,
            List.forall₂_map_right_iff]
          constructor
          · intro h
            exact forall₂_imp_of_mem h fun x hx y hy => (ih x hx (hys y hy)).mp
          · intro h
            exact forall₂_imp_of_mem h fun x hx y hy => (ih x hx (hys y hy)).mpr
      | _ => simp [equal, canonical]
  | object es hes _ ih =>
      cases hw with
      | object fs hfs hentries =>
          rw [canonical, canonical, object.injEq, Entries.sorted_eq_iff_perm,
            equal_object_iff_perm hes hfs]
          · exact fun e he f hf => ih e he (hentries f hf)
          · rwa [keys_canonicalEntries]
      | _ => simp [equal, canonical]

theorem perm_keys_of_equal {es fs : Entries Value} (hes : (object es).IsDocument)
    (hfs : (object fs).IsDocument) (h : equal (object es) (object fs) = true) :
    (Entries.keys es).Perm (Entries.keys fs) := by
  rw [equal_object_iff_perm hes.nodup_keys hfs.nodup_keys] at h
  · rw [← keys_canonicalEntries es, ← keys_canonicalEntries fs]
    exact h.map Prod.fst
  · intro e he f hf
    exact equal_iff_canonical_eq (hes.of_mem_entries e he) (hfs.of_mem_entries f hf)

/-! ### Hashes -/

/-- The hash of a collection does not depend on the order of its pairs. -/
def Hashing.IgnoresOrder {H : Type} (h : Hashing H) : Prop :=
  ∀ pairs others, List.Perm pairs others → h.collection pairs = h.collection others

variable {H : Type} {h : Hashing H}

theorem hashEntries_eq_map (h : Hashing H) (entries : Entries Value) :
    hashEntries h entries = entries.map fun e => (e.1, e.2.hash h) := by
  induction entries with
  | nil => rfl
  | cons e rest ih => rw [hashEntries, ih, List.map_cons]

mutual

theorem hash_canonical (hcollection : h.IgnoresOrder) : (v : Value) →
    v.canonical.hash h = v.hash h
  | .null | .bool _ | .string _ | .bare _ => rfl
  | .number n => by rw [canonical, hash, hash, h.number_canonical]
  | .array items => by rw [canonical, hash, hash, hashItems_canonicalItems hcollection items]
  | .object entries => by
      rw [canonical, hash, hash, ← hashEntries_canonicalEntries hcollection entries]
      refine hcollection _ _ ?_
      rw [hashEntries_eq_map, hashEntries_eq_map]
      exact (Entries.sorted_perm _).map _

theorem hashItems_canonicalItems (hcollection : h.IgnoresOrder) : (items : List Value) →
    hashItems h (canonicalItems items) = hashItems h items
  | [] => rfl
  | v :: vs => by
      rw [canonicalItems, hashItems, hashItems, hash_canonical hcollection v,
        hashItems_canonicalItems hcollection vs]

theorem hashEntries_canonicalEntries (hcollection : h.IgnoresOrder) :
    (entries : List (String × Value)) →
    hashEntries h (canonicalEntries entries) = hashEntries h entries
  | [] => rfl
  | (k, v) :: rest => by
      rw [canonicalEntries, hashEntries, hashEntries, hash_canonical hcollection v,
        hashEntries_canonicalEntries hcollection rest]

end

/-- Equality is an equivalence of documents, and equal documents have equal hashes, however scalars
and lists of hashes are hashed, if only a collection is hashed without an order. -/
theorem equal_equivalence_and_hash_eq :
    Equivalence (fun v w : {v : Value // v.IsDocument} => v.1.equal w.1 = true) ∧
      ∀ {H : Type} {h : Hashing H}, h.IgnoresOrder → ∀ {v w : Value}, v.IsDocument →
        w.IsDocument → v.equal w = true → v.hash h = w.hash h := by
  constructor
  · constructor
    · rintro ⟨v, hv⟩
      exact hv.equal_self
    · rintro ⟨v, hv⟩ ⟨w, hw⟩ h
      rw [equal_iff_canonical_eq hv hw] at h
      exact (equal_iff_canonical_eq hw hv).mpr h.symm
    · rintro ⟨v, hv⟩ ⟨w, hw⟩ ⟨u, hu⟩ hvw hwu
      rw [equal_iff_canonical_eq hv hw] at hvw
      rw [equal_iff_canonical_eq hw hu] at hwu
      exact (equal_iff_canonical_eq hv hu).mpr (hvw.trans hwu)
  · intro H h hcollection v w hv hw hequal
    calc v.hash h
      _ = v.canonical.hash h := (hash_canonical hcollection v).symm
      _ = w.canonical.hash h := by rw [(equal_iff_canonical_eq hv hw).mp hequal]
      _ = w.hash h := hash_canonical hcollection w

theorem Hashing.modular_ignoresOrder : modular.IgnoresOrder := by
  intro pairs others hperm
  refine hperm.foldl_eq' (fun d _ e _ n => ?_) 23
  rw [Nat.mod_add_mod, Nat.mod_add_mod, Nat.add_right_comm]

def zeroFirst : Value :=
  object [("a", number (.float (.zero false))), ("b", object [("c", null), ("d", bool true)])]

def zeroLast : Value :=
  object [("b", object [("d", bool true), ("c", null)]), ("a", number (.float (.zero true)))]

theorem isDocument_twoEntries {k l : String} (hne : k ≠ l) {v w : Value} (hv : v.IsDocument)
    (hw : w.IsDocument) : (object [(k, v), (l, w)]).IsDocument :=
  .object _ (List.nodup_cons.mpr ⟨by simpa using hne, List.nodup_singleton _⟩)
    (List.forall_mem_cons.mpr ⟨hv, List.forall_mem_singleton.mpr hw⟩)

theorem hash_modular_zeroLast :
    Hashing.modular.IgnoresOrder ∧ zeroFirst.IsDocument ∧ zeroLast.IsDocument ∧
      zeroFirst.equal zeroLast = true ∧
      (number (.int 0)).equal (number (.float (.zero false))) = false ∧
      zeroFirst.hash Hashing.modular = zeroLast.hash Hashing.modular := by
  have hfirst : zeroFirst.IsDocument :=
    isDocument_twoEntries (by decide) (.number _)
      (isDocument_twoEntries (by decide) .null (.bool true))
  have hlast : zeroLast.IsDocument :=
    isDocument_twoEntries (by decide)
      (isDocument_twoEntries (by decide) (.bool true) .null) (.number _)
  have hequal : zeroFirst.equal zeroLast = true := by rfl
  exact ⟨Hashing.modular_ignoresOrder, hfirst, hlast, hequal, rfl,
    equal_equivalence_and_hash_eq.2 Hashing.modular_ignoresOrder hfirst hlast hequal⟩

end Value

end Reshape
