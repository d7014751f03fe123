import Mathlib.Data.List.Basic
import Mathlib.Data.Nat.Count

namespace Reshape.Edit

variable {α : Type}

/-- The elements of a list without those at some positions. -/
def without (out : Nat → Bool) : List α → List α
  | [] => []
  | x :: xs =>
    let rest := without (fun p => out (p + 1)) xs
    if out 0 then rest else x :: rest

/-- How many positions before one are kept. -/
def keptBefore (out : Nat → Bool) (p : Nat) : Nat :=
  Nat.count (fun q => out q = false) p

theorem without_cons (out : Nat → Bool) (x : α) (xs : List α) :
    without out (x :: xs) =
      if out 0 then without (fun p => out (p + 1)) xs
      else x :: without (fun p => out (p + 1)) xs :=
  rfl

theorem without_congr {out out' : Nat → Bool} {xs : List α}
    (h : ∀ p < xs.length, out p = out' p) : without out xs = without out' xs := by
  induction xs generalizing out out' with
  | nil => rfl
  | cons x xs ih =>
      have hrest : without (fun p => out (p + 1)) xs = without (fun p => out' (p + 1)) xs :=
        ih fun p hp => h (p + 1) (by simpa using hp)
      rw [without_cons, without_cons, hrest, h 0 (by simp)]

theorem without_none (xs : List α) : without (fun _ => false) xs = xs := by
  induction xs with
  | nil => rfl
  | cons x xs ih => rw [without_cons, ih]; rfl

theorem keptBefore_succ (out : Nat → Bool) (p : Nat) :
    keptBefore out (p + 1) =
      keptBefore (fun q => out (q + 1)) p + if out 0 then 0 else 1 := by
  rw [keptBefore, Nat.count_succ']
  cases out 0 <;> rfl

theorem keptBefore_succ_of_kept {out : Nat → Bool} {p : Nat} (hp : out p = false) :
    keptBefore out (p + 1) = keptBefore out p + 1 := by
  rw [keptBefore, Nat.count_succ, if_pos hp, keptBefore]

theorem length_without (out : Nat → Bool) (xs : List α) :
    (without out xs).length = keptBefore out xs.length := by
  induction xs generalizing out with
  | nil => rfl
  | cons x xs ih =>
      rw [without_cons, List.length_cons, keptBefore_succ]
      cases out 0 with
      | true => exact ih _
      | false => exact congrArg (· + 1) (ih _)

theorem without_sublist (out : Nat → Bool) (xs : List α) : (without out xs).Sublist xs := by
  induction xs generalizing out with
  | nil => exact .slnil
  | cons x xs ih =>
      rw [without_cons]
      split
      · exact (ih _).cons _
      · exact (ih _).cons_cons _

theorem getElem_mem_without_iff {out : Nat → Bool} {xs : List α} (hxs : xs.Nodup) {p : Nat}
    (hp : p < xs.length) : xs[p] ∈ without out xs ↔ out p = false := by
  induction xs generalizing out p with
  | nil => cases hp
  | cons x xs ih =>
      obtain ⟨hx, hxs⟩ := List.nodup_cons.mp hxs
      rw [without_cons]
      cases p with
      | zero =>
          have hgone : x ∉ without (fun p => out (p + 1)) xs :=
            fun hmem => hx ((without_sublist _ xs).subset hmem)
          cases hfirst : out 0 <;> simp [hgone]
      | succ p =>
          have hlength : p < xs.length := by simpa using hp
          have hne : xs[p] ≠ x := fun heq => hx (heq ▸ List.getElem_mem hlength)
          have hrest : xs[p] ∈ without (fun p => out (p + 1)) xs ↔ out (p + 1) = false :=
            ih hxs hlength
          rw [List.getElem_cons_succ, ← hrest]
          cases out 0 <;> simp [hne]

theorem eq_of_without_eq {out out' : Nat → Bool} {xs : List α} (hxs : xs.Nodup)
    (h : without out xs = without out' xs) {p : Nat} (hp : p < xs.length) : out p = out' p := by
  have hiff : out p = false ↔ out' p = false := by
    rw [← getElem_mem_without_iff hxs hp, h, getElem_mem_without_iff hxs hp]
  cases hout : out p with
  | false => exact (hiff.mp hout).symm
  | true =>
      cases hout' : out' p with
      | false => exact hout.symm.trans (hiff.mpr hout')
      | true => rfl

theorem without_without (out next : Nat → Bool) (xs : List α) :
    without next (without out xs) = without (fun p => out p || next (keptBefore out p)) xs := by
  induction xs generalizing out next with
  | nil => rfl
  | cons x xs ih =>
      rw [without_cons, without_cons]
      simp only [keptBefore_succ]
      cases hfirst : out 0 with
      | true => simpa [hfirst] using ih _ _
      | false =>
          have hzero : keptBefore out 0 = 0 := rfl
          simp only [Bool.false_eq_true, if_false, Bool.false_or, hzero]
          rw [without_cons, ih]

theorem without_append (out : Nat → Bool) (xs ys : List α) :
    without out (xs ++ ys) = without out xs ++ without (fun p => out (xs.length + p)) ys := by
  induction xs generalizing out with
  | nil => simp [without]
  | cons x xs ih =>
      have hshift : (fun p => out (xs.length + p + 1)) = fun p => out ((x :: xs).length + p) := by
        funext p
        rw [List.length_cons, Nat.add_right_comm]
      rw [List.cons_append, without_cons, without_cons, ih, hshift]
      cases out 0 <;> rfl

theorem reverse_without_reverse (out : Nat → Bool) (xs : List α) :
    (without out xs.reverse).reverse = without (fun p => out (xs.length - 1 - p)) xs := by
  induction xs with
  | nil => rfl
  | cons x xs ih =>
      have hshift : (fun p => out ((x :: xs).length - 1 - (p + 1))) =
          fun p => out (xs.length - 1 - p) := by
        funext p
        rw [List.length_cons, show xs.length + 1 - 1 - (p + 1) = xs.length - 1 - p by omega]
      calc (without out (x :: xs).reverse).reverse
        _ = (if out xs.length then [] else [x]) ++
            without (fun p => out (xs.length - 1 - p)) xs := by
          rw [List.reverse_cons, without_append, List.reverse_append, ih, List.length_reverse,
            without_cons, Nat.add_zero]
          cases out xs.length <;> rfl
        _ = without (fun p => out ((x :: xs).length - 1 - p)) (x :: xs) := by
          rw [without_cons, hshift, List.length_cons, Nat.add_sub_cancel, Nat.sub_zero]
          cases out xs.length <;> rfl

theorem eraseIdx_eq_without (xs : List α) (p : Nat) :
    xs.eraseIdx p = without (· == p) xs := by
  induction xs generalizing p with
  | nil => rfl
  | cons x xs ih =>
      cases p with
      | zero =>
          rw [without_cons, List.eraseIdx_cons_zero]
          exact (without_none xs).symm
      | succ p =>
          rw [without_cons, List.eraseIdx_cons_succ, ih]
          simp

theorem keptBefore_single (p q : Nat) :
    keptBefore (· == p) q = if q ≤ p then q else q - 1 := by
  induction q with
  | zero => rfl
  | succ q ih =>
      rw [keptBefore, Nat.count_succ, ← keptBefore, ih]
      by_cases hqp : q = p
      · simp [hqp]
      · simp only [beq_eq_false_iff_ne, ne_eq, hqp, not_false_eq_true, if_true]
        split <;> split <;> omega

/-- Removals from the highest position down take out what stands at these positions. -/
theorem foldl_eraseIdx_of_descending {ps : List Nat} (hps : ps.Pairwise (· > ·)) (xs : List α) :
    ps.foldl List.eraseIdx xs = without (fun p => decide (p ∈ ps)) xs := by
  induction ps generalizing xs with
  | nil => simp [without_none]
  | cons first rest ih =>
      obtain ⟨hfirst, hrest⟩ := List.pairwise_cons.mp hps
      rw [List.foldl_cons, ih hrest, eraseIdx_eq_without, without_without]
      refine without_congr fun p _ => ?_
      rw [keptBefore_single, Bool.eq_iff_iff]
      simp only [Bool.or_eq_true, beq_iff_eq, decide_eq_true_eq, List.mem_cons]
      refine or_congr_right ?_
      -- A later position does not lie behind the first one.
      split
      · rfl
      · constructor
        · intro hmem
          have := hfirst _ hmem
          omega
        · intro hmem
          have := hfirst _ hmem
          omega

/-- Removals from the lowest position up take out, for each position, what stands as many places
behind it as there are lower ones. -/
theorem foldl_eraseIdx_of_ascending {ps : List Nat} (hps : ps.Pairwise (· < ·)) (xs : List α) :
    ps.foldl List.eraseIdx xs =
      without (fun p => decide (∃ q ∈ ps, p = q + ps.countP (· < q))) xs := by
  induction ps generalizing xs with
  | nil => simp [without_none]
  | cons first rest ih =>
      obtain ⟨hfirst, hrest⟩ := List.pairwise_cons.mp hps
      rw [List.foldl_cons, ih hrest, eraseIdx_eq_without, without_without]
      refine without_congr fun p _ => ?_
      rw [keptBefore_single, Bool.eq_iff_iff]
      simp only [Bool.or_eq_true, beq_iff_eq, decide_eq_true_eq, List.exists_mem_cons_iff]
      have hnone : (first :: rest).countP (· < first) = 0 := by
        rw [List.countP_eq_zero]
        intro q hq
        rcases List.mem_cons.mp hq with rfl | hq
        · simp
        · have := hfirst q hq
          simp only [decide_eq_true_eq]
          omega
      have hmore : ∀ q ∈ rest, (first :: rest).countP (· < q) = rest.countP (· < q) + 1 := by
        intro q hq
        exact List.countP_cons_of_pos (by simpa using hfirst q hq)
      rw [hnone, Nat.add_zero]
      refine or_congr_right (exists_congr fun q => and_congr_right fun hq => ?_)
      have hlater := hfirst q hq
      rw [hmore q hq]
      split <;> omega

end Reshape.Edit
