import Mathlib.Data.List.Forall2

namespace Reshape

variable {α β γ : Type} {R : α → β → Prop} {S : β → γ → Prop}

theorem exists_mem_of_forall₂ {xs : List α} {ys : List β} (h : List.Forall₂ R xs ys) {y : β}
    (hy : y ∈ ys) : ∃ x ∈ xs, R x y := by
  induction h with
  | nil => cases hy
  | @cons x z xs ys hxz hrest ih =>
      rcases List.mem_cons.mp hy with rfl | hy
      · exact ⟨x, List.mem_cons_self, hxz⟩
      · obtain ⟨x', hx', hR⟩ := ih hy
        exact ⟨x', List.mem_cons_of_mem x hx', hR⟩

theorem forall₂_imp_of_mem {T : α → β → Prop} {xs : List α} {ys : List β}
    (h : List.Forall₂ R xs ys) (himp : ∀ x ∈ xs, ∀ y ∈ ys, R x y → T x y) :
    List.Forall₂ T xs ys := by
  induction h with
  | nil => exact .nil
  | @cons x y xs ys hxy _ ih =>
      refine .cons (himp x List.mem_cons_self y List.mem_cons_self hxy) (ih fun a ha b hb => ?_)
      exact himp a (List.mem_cons_of_mem x ha) b (List.mem_cons_of_mem y hb)

theorem exists_getElem?_of_forall₂ {xs : List α} {ys : List β} (h : List.Forall₂ R xs ys) {i : Nat}
    {x : α} (hx : xs[i]? = some x) : ∃ y, ys[i]? = some y ∧ R x y := by
  induction h generalizing i with
  | nil => cases hx
  | @cons a b as bs hab _ ih =>
      cases i with
      | zero =>
          cases hx
          exact ⟨b, rfl, hab⟩
      | succ i => exact ih hx

/-- Elements are related through others if the lists are related through the list of these. -/
theorem forall₂_exists_iff {xs : List α} {zs : List γ} :
    List.Forall₂ (fun a c => ∃ b, R a b ∧ S b c) xs zs ↔
      ∃ ys, List.Forall₂ R xs ys ∧ List.Forall₂ S ys zs := by
  constructor
  · intro h
    induction h with
    | nil => exact ⟨[], .nil, .nil⟩
    | cons hhead _ ih =>
        obtain ⟨b, hR, hS⟩ := hhead
        obtain ⟨ys, hRs, hSs⟩ := ih
        exact ⟨b :: ys, .cons hR hRs, .cons hS hSs⟩
  · rintro ⟨ys, hRs, hSs⟩
    induction hRs generalizing zs with
    | nil =>
        rw [List.forall₂_nil_left_iff.mp hSs]
        exact .nil
    | cons hR _ ih =>
        obtain ⟨c, rest, hS, hrest, rfl⟩ := List.forall₂_cons_left_iff.mp hSs
        exact .cons ⟨_, hR, hS⟩ (ih hrest)

theorem exists_append_of_forall₂ {xs xs' : List α} {ys : List β}
    (h : List.Forall₂ R (xs ++ xs') ys) :
    ∃ front back, ys = front ++ back ∧ List.Forall₂ R xs front ∧ List.Forall₂ R xs' back := by
  induction xs generalizing ys with
  | nil => exact ⟨[], ys, rfl, .nil, h⟩
  | cons x xs ih =>
      obtain ⟨y, rest, hy, hrest, rfl⟩ := List.forall₂_cons_left_iff.mp h
      obtain ⟨front, back, rfl, hfront, hback⟩ := ih hrest
      exact ⟨y :: front, back, rfl, .cons hy hfront, hback⟩

end Reshape
