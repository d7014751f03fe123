import Reshape.Value.Shape

namespace Reshape.Value

mutual

/-- The parts of a document below its root, in depth-first order. -/
def descendants : Value → List Value
  | array vs => descendantsOfItems vs
  | object entries => descendantsOfEntries entries
  | _ => []

def descendantsOfItems : List Value → List Value
  | [] => []
  | v :: vs => v :: descendants v ++ descendantsOfItems vs

def descendantsOfEntries : List (String × Value) → List Value
  | [] => []
  | (_, v) :: rest => v :: descendants v ++ descendantsOfEntries rest

end

mutual

/-- The scalars other than null in depth-first order, each behind the keys of the objects on the
way to it. -/
def scalars : Value → List (List String × Value)
  | null => []
  | array vs => scalarsOfItems vs
  | object entries => scalarsOfEntries entries
  | v => [([], v)]

def scalarsOfItems : List Value → List (List String × Value)
  | [] => []
  | v :: vs => scalars v ++ scalarsOfItems vs

def scalarsOfEntries : List (String × Value) → List (List String × Value)
  | [] => []
  | (k, v) :: rest => (scalars v).map (Prod.map (k :: ·) id) ++ scalarsOfEntries rest

end

theorem isEmpty_eq_false_iff {v : Value} :
    v.isEmpty = false ↔ v ≠ null ∧ v ≠ array [] ∧ v ≠ object [] := by
  cases v <;> simp [isEmpty]

theorem scalars_of_isEmpty {v : Value} (h : v.isEmpty = true) : v.scalars = [] := by
  cases v with
  | null => rfl
  | array vs => rw [List.isEmpty_iff.mp h, scalars, scalarsOfItems]
  | object entries => rw [List.isEmpty_iff.mp h, scalars, scalarsOfEntries]
  | _ => cases h

/-! ### Nothing empty is left -/

mutual

theorem isEmpty_eq_false_of_mem_descendants : (v : Value) →
    ∀ w ∈ v.withoutEmpty.descendants, w.isEmpty = false
  | .null | .bool _ | .number _ | .string _ | .bare _ => nofun
  | .array vs => by
      rw [withoutEmpty, descendants]
      exact isEmpty_eq_false_of_mem_descendantsOfItems vs
  | .object entries => by
      rw [withoutEmpty, descendants]
      exact isEmpty_eq_false_of_mem_descendantsOfEntries entries

theorem isEmpty_eq_false_of_mem_descendantsOfItems : (vs : List Value) →
    ∀ w ∈ descendantsOfItems (withoutEmptyItems vs), w.isEmpty = false
  | [] => nofun
  | v :: vs => by
      rw [withoutEmptyItems]
      split
      · exact isEmpty_eq_false_of_mem_descendantsOfItems vs
      · rename_i hv
        rw [descendantsOfItems, List.cons_append, List.forall_mem_cons, List.forall_mem_append]
        exact ⟨by simpa using hv, isEmpty_eq_false_of_mem_descendants v,
          isEmpty_eq_false_of_mem_descendantsOfItems vs⟩

theorem isEmpty_eq_false_of_mem_descendantsOfEntries : (entries : List (String × Value)) →
    ∀ w ∈ descendantsOfEntries (withoutEmptyEntries entries), w.isEmpty = false
  | [] => nofun
  | (k, v) :: rest => by
      rw [withoutEmptyEntries]
      split
      · exact isEmpty_eq_false_of_mem_descendantsOfEntries rest
      · rename_i hv
        rw [descendantsOfEntries, List.cons_append, List.forall_mem_cons, List.forall_mem_append]
        exact ⟨by simpa using hv, isEmpty_eq_false_of_mem_descendants v,
          isEmpty_eq_false_of_mem_descendantsOfEntries rest⟩

end

/-! ### No scalar is lost -/

mutual

theorem scalars_withoutEmpty : (v : Value) → v.withoutEmpty.scalars = v.scalars
  | .null | .bool _ | .number _ | .string _ | .bare _ => rfl
  | .array vs => by
      rw [withoutEmpty, scalars, scalars, scalarsOfItems_withoutEmptyItems vs]
  | .object entries => by
      rw [withoutEmpty, scalars, scalars, scalarsOfEntries_withoutEmptyEntries entries]

theorem scalarsOfItems_withoutEmptyItems : (vs : List Value) →
    scalarsOfItems (withoutEmptyItems vs) = scalarsOfItems vs
  | [] => rfl
  | v :: vs => by
      have hv := scalars_withoutEmpty v
      have hvs := scalarsOfItems_withoutEmptyItems vs
      rw [withoutEmptyItems, scalarsOfItems]
      split
      · rename_i hempty
        rw [hvs, ← hv, scalars_of_isEmpty hempty, List.nil_append]
      · rw [scalarsOfItems, hv, hvs]

theorem scalarsOfEntries_withoutEmptyEntries : (entries : List (String × Value)) →
    scalarsOfEntries (withoutEmptyEntries entries) = scalarsOfEntries entries
  | [] => rfl
  | (k, v) :: rest => by
      have hv := scalars_withoutEmpty v
      have hrest := scalarsOfEntries_withoutEmptyEntries rest
      rw [withoutEmptyEntries, scalarsOfEntries]
      split
      · rename_i hempty
        rw [hrest, ← hv, scalars_of_isEmpty hempty, List.map_nil, List.nil_append]
      · rw [scalarsOfEntries, hv, hrest]

end

/-! ### What has no empty part stays -/

mutual

theorem withoutEmpty_eq_self : (v : Value) →
    (∀ w ∈ v.descendants, w.isEmpty = false) → v.withoutEmpty = v
  | .null | .bool _ | .number _ | .string _ | .bare _ => fun _ => rfl
  | .array vs => fun h => by
      rw [withoutEmpty, withoutEmptyItems_eq_self vs h]
  | .object entries => fun h => by
      rw [withoutEmpty, withoutEmptyEntries_eq_self entries h]

theorem withoutEmptyItems_eq_self : (vs : List Value) →
    (∀ w ∈ descendantsOfItems vs, w.isEmpty = false) → withoutEmptyItems vs = vs
  | [] => fun _ => rfl
  | v :: vs => fun h => by
      rw [descendantsOfItems, List.cons_append, List.forall_mem_cons, List.forall_mem_append] at h
      obtain ⟨hv, hinner, hvs⟩ := h
      rw [withoutEmptyItems, withoutEmpty_eq_self v hinner, withoutEmptyItems_eq_self vs hvs]
      simp [hv]

theorem withoutEmptyEntries_eq_self : (entries : List (String × Value)) →
    (∀ w ∈ descendantsOfEntries entries, w.isEmpty = false) →
      withoutEmptyEntries entries = entries
  | [] => fun _ => rfl
  | (k, v) :: rest => fun h => by
      rw [descendantsOfEntries, List.cons_append, List.forall_mem_cons, List.forall_mem_append]
        at h
      obtain ⟨hv, hinner, hrest⟩ := h
      rw [withoutEmptyEntries, withoutEmpty_eq_self v hinner,
        withoutEmptyEntries_eq_self rest hrest]
      simp [hv]

end

/-- Without its empty parts a document has none below the root, also none that became empty; it
has the same scalars in the same order and under the same keys; and nothing happens where there is
nothing to leave out, so in particular not a second time. -/
theorem withoutEmpty_ends (v : Value) :
    (∀ w ∈ v.withoutEmpty.descendants, w ≠ null ∧ w ≠ array [] ∧ w ≠ object []) ∧
    v.withoutEmpty.scalars = v.scalars ∧
    v.withoutEmpty.withoutEmpty = v.withoutEmpty ∧
    (v.withoutEmpty = v ↔
      ∀ w ∈ v.descendants, w ≠ null ∧ w ≠ array [] ∧ w ≠ object []) := by
  simp only [← isEmpty_eq_false_iff]
  have hnone := isEmpty_eq_false_of_mem_descendants v
  refine ⟨hnone, scalars_withoutEmpty v, withoutEmpty_eq_self _ hnone, fun hsame => ?_,
    withoutEmpty_eq_self v⟩
  rwa [hsame] at hnone

/-- The object is empty only after what is inside it has gone. -/
example : withoutEmpty (array [null, object [("a", array [array [], null])], string ""]) =
    array [string ""] :=
  rfl

end Reshape.Value
