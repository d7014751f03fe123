import Mathlib.Data.List.Chain
import Mathlib.Data.List.Forall2
import Reshape.Proofs.Outcome
import Reshape.Sorting

/-!
Sorting by a comparison that can fail. Main statements: `sort_ends`, that sorting keeps the
elements unless one of the comparisons fails, `sort_alike`, that it looks at the elements through
the comparison only, and `pairwise_sort`, that it puts the elements into any transitive order that
the comparison agrees with.
-/

namespace Reshape.Sorting

variable {α β ε : Type} {before : α → α → Except ε Bool}

theorem insert_of_drop_eq_nil {pivot : α} {sorted : List α}
    (h : sorted.drop (sorted.length / 2) = []) : insert before pivot sorted = .ok [pivot] := by
  rw [insert]
  split
  · rfl
  · rename_i heq
    cases h.symm.trans heq

theorem insert_of_drop_eq_cons {pivot middle : α} {sorted right : List α}
    (h : sorted.drop (sorted.length / 2) = middle :: right) :
    insert before pivot sorted =
      match before pivot middle with
      | .error e => .error e
      | .ok true =>
        (insert before pivot (sorted.take (sorted.length / 2))).map (· ++ middle :: right)
      | .ok false =>
        (insert before pivot right).map (sorted.take (sorted.length / 2) ++ middle :: ·) := by
  rw [insert]
  split
  · rename_i heq
    cases h.symm.trans heq
  · rename_i heq
    cases h.symm.trans heq
    rfl

/-! ### The elements -/

section Ends

variable {E : ε → Prop}

theorem insert_ends {pivot : α} {sorted : List α}
    (hbefore : ∀ y ∈ sorted, Ends E (fun _ => True) (before pivot y)) :
    Ends E (·.Perm (pivot :: sorted)) (insert before pivot sorted) := by
  fun_induction insert before pivot sorted with
  | case1 sorted hdrop =>
      have hempty : sorted = [] := by
        have hlength := congrArg List.length hdrop
        rw [List.length_drop, List.length_nil] at hlength
        exact List.eq_nil_of_length_eq_zero (by omega)
      rw [hempty]
      exact .ok (.refl _)
  | case2 sorted middle right hdrop e herror =>
      have hmiddle : middle ∈ sorted := List.mem_of_mem_drop (hdrop ▸ List.mem_cons_self)
      exact .error ((hbefore middle hmiddle).of_eq_error herror)
  | case3 sorted middle right hdrop left hless ih =>
      have hsplit : left ++ middle :: right = sorted := by
        rw [← hdrop]
        exact List.take_append_drop _ _
      refine (ih fun y hy => hbefore y (List.mem_of_mem_take hy)).map fun ys hys => ?_
      rw [← hsplit]
      exact hys.append_right _
  | case4 sorted middle right hdrop left hless ih =>
      have hsplit : left ++ middle :: right = sorted := by
        rw [← hdrop]
        exact List.take_append_drop _ _
      have hright : ∀ y ∈ right, y ∈ sorted := by
        intro y hy
        exact List.mem_of_mem_drop (hdrop ▸ List.mem_cons_of_mem _ hy)
      refine (ih fun y hy => hbefore y (hright y hy)).map fun ys hys => ?_
      rw [← hsplit]
      calc left ++ middle :: ys
        _ |>.Perm (left ++ middle :: pivot :: right) := (hys.cons middle).append_left left
        _ |>.Perm (left ++ pivot :: middle :: right) := (List.Perm.swap ..).append_left left
        _ |>.Perm (pivot :: (left ++ middle :: right)) := List.perm_middle

theorem insertAll_ends {sorted xs : List α}
    (hbefore : ∀ x ∈ xs ++ sorted, ∀ y ∈ xs ++ sorted, Ends E (fun _ => True) (before x y)) :
    Ends E (·.Perm (xs ++ sorted)) (insertAll before sorted xs) := by
  induction xs generalizing sorted with
  | nil => exact .ok (.refl _)
  | cons x xs ih =>
      have hinsert : Ends E (·.Perm (x :: sorted)) (insert before x sorted) := by
        refine insert_ends fun y hy => hbefore x (by simp) y (by simp [hy])
      rw [insertAll]
      cases hresult : insert before x sorted with
      | error e => exact .error (hinsert.of_eq_error hresult)
      | ok next =>
          have hall : (xs ++ next).Perm (x :: xs ++ sorted) :=
            ((hinsert.of_eq_ok hresult).append_left xs).trans List.perm_middle
          refine (ih fun a ha b hb => ?_).imp fun ys hys => hys.trans hall
          exact hbefore a (hall.mem_iff.mp ha) b (hall.mem_iff.mp hb)

theorem takeRun_ends {falling : Bool} {last : α} {xs : List α}
    (hbefore : ∀ x ∈ last :: xs, ∀ y ∈ last :: xs, Ends E (fun _ => True) (before x y)) :
    Ends E (fun (run, rest) => run ++ rest = xs) (takeRun before falling last xs) := by
  induction xs generalizing last with
  | nil => exact .ok rfl
  | cons x xs ih =>
      have hfirst := hbefore x (by simp) last (by simp)
      rw [takeRun]
      cases hresult : before x last with
      | error e => exact .error (hfirst.of_eq_error hresult)
      | ok falls =>
          dsimp only
          split
          · have hrest : ∀ a ∈ x :: xs, a ∈ last :: x :: xs := fun a => List.mem_cons_of_mem last
            refine (ih fun a ha b hb => hbefore a (hrest a ha) b (hrest b hb)).map ?_
            rintro ⟨run, rest⟩ hrun
            exact congrArg (x :: ·) hrun
          · exact .ok rfl

/-- Sorting keeps the elements, and fails only as a comparison of two of them does. -/
theorem sort_ends {xs : List α}
    (hbefore : ∀ x ∈ xs, ∀ y ∈ xs, Ends E (fun _ => True) (before x y)) :
    Ends E (·.Perm xs) (sort before xs) := by
  have htakeRun : ∀ x y rest falling, xs = x :: y :: rest →
      Ends E (fun (run, more) => run ++ more = rest) (takeRun before falling y rest) := by
    rintro x y rest falling rfl
    refine takeRun_ends fun a ha b hb => ?_
    exact hbefore a (List.mem_cons_of_mem x ha) b (List.mem_cons_of_mem x hb)
  fun_cases sort before xs with
  | case1 => exact .ok (.refl _)
  | case2 x => exact .ok (.refl _)
  | case3 x y rest e herror =>
      exact .error ((hbefore y (by simp) x (by simp)).of_eq_error herror)
  | case4 x y rest falling hfirst e herror =>
      exact .error ((htakeRun x y rest falling rfl).of_eq_error herror)
  | case5 x y rest falling hfirst run more hrun first =>
      have hsplit : run ++ more = rest := (htakeRun x y rest falling rfl).of_eq_ok hrun
      have hfirst : (if falling then first.reverse else first).Perm first := by
        split
        · exact List.reverse_perm first
        · exact .refl _
      have hall : (more ++ if falling then first.reverse else first).Perm (x :: y :: rest) := by
        rw [← hsplit]
        exact (hfirst.append_left more).trans List.perm_append_comm
      refine (insertAll_ends fun a ha b hb => ?_).imp fun ys hys => hys.trans hall
      exact hbefore a (hall.mem_iff.mp ha) b (hall.mem_iff.mp hb)

theorem sortDescending_ends {xs : List α}
    (hbefore : ∀ x ∈ xs, ∀ y ∈ xs, Ends E (fun _ => True) (before x y)) :
    Ends E (·.Perm xs) (sortDescending before xs) := by
  have hreverse : Ends E (·.Perm xs.reverse) (sort before xs.reverse) :=
    sort_ends fun a ha b hb => hbefore a (List.mem_reverse.mp ha) b (List.mem_reverse.mp hb)
  refine hreverse.map fun ys hys => ?_
  exact (List.reverse_perm ys).trans (hys.trans (List.reverse_perm xs))

end Ends

/-! ### Two comparisons -/

section Alike

variable {T : α → β → Prop} {before' : β → β → Except ε Bool}

theorem exists_middle {xs : List α} {ys : List β} (h : List.Forall₂ T xs ys) {middle : α}
    {right : List α} (hdrop : xs.drop (xs.length / 2) = middle :: right) :
    ∃ middle' right', ys.drop (ys.length / 2) = middle' :: right' ∧ T middle middle' ∧
      List.Forall₂ T right right' ∧
      List.Forall₂ T (xs.take (xs.length / 2)) (ys.take (ys.length / 2)) := by
  have hback := List.forall₂_drop (xs.length / 2) h
  have hfront := List.forall₂_take (xs.length / 2) h
  rw [hdrop, h.length_eq, List.forall₂_cons_left_iff] at hback
  rw [h.length_eq] at hfront
  obtain ⟨middle', right', hmiddle, hright, hdrop'⟩ := hback
  exact ⟨middle', right', hdrop', hmiddle, hright, h.length_eq ▸ hfront⟩

variable (hbefore : ∀ x y z w, T x z → T y w → before x y = before' z w)

include hbefore

theorem insert_alike {x : α} {y : β} (h : T x y) {xs : List α} {ys : List β}
    (hxs : List.Forall₂ T xs ys) :
    Alike (List.Forall₂ T) (insert before x xs) (insert before' y ys) := by
  fun_induction insert before x xs generalizing ys with
  | case1 xs hdrop =>
      have hback := List.forall₂_drop (xs.length / 2) hxs
      rw [hdrop, hxs.length_eq, List.forall₂_nil_left_iff] at hback
      rw [insert_of_drop_eq_nil hback]
      exact .ok (.cons h .nil)
  | case2 xs middle right hdrop e herror =>
      obtain ⟨middle', right', hdrop', hmiddle, -, -⟩ := exists_middle hxs hdrop
      rw [insert_of_drop_eq_cons hdrop', ← hbefore _ _ _ _ h hmiddle, herror]
      exact .error e
  | case3 xs middle right hdrop left hless =>
      rename_i ih
      obtain ⟨middle', right', hdrop', hmiddle, hright, hleft⟩ := exists_middle hxs hdrop
      rw [insert_of_drop_eq_cons hdrop', ← hbefore _ _ _ _ h hmiddle, hless]
      exact (ih hleft).map fun _ _ hmore => List.rel_append hmore (.cons hmiddle hright)
  | case4 xs middle right hdrop left hless =>
      rename_i ih
      obtain ⟨middle', right', hdrop', hmiddle, hright, hleft⟩ := exists_middle hxs hdrop
      rw [insert_of_drop_eq_cons hdrop', ← hbefore _ _ _ _ h hmiddle, hless]
      exact (ih hright).map fun _ _ hmore => List.rel_append hleft (.cons hmiddle hmore)

theorem insertAll_alike {xs sorted : List α} {ys sorted' : List β} (hxs : List.Forall₂ T xs ys)
    (hsorted : List.Forall₂ T sorted sorted') :
    Alike (List.Forall₂ T) (insertAll before sorted xs) (insertAll before' sorted' ys) := by
  induction hxs generalizing sorted sorted' with
  | nil => exact .ok hsorted
  | cons h _ ih =>
      rw [insertAll, insertAll]
      rcases (insert_alike hbefore h hsorted).exists_eq with
        ⟨e, herror, herror'⟩ | ⟨next, next', hnext, hnext', halike⟩
      · rw [herror, herror']
        exact .error e
      · rw [hnext, hnext']
        exact ih halike

theorem takeRun_alike {falling : Bool} {last : α} {last' : β} (hlast : T last last')
    {xs : List α} {ys : List β} (hxs : List.Forall₂ T xs ys) :
    Alike (fun split split' => List.Forall₂ T split.1 split'.1 ∧ List.Forall₂ T split.2 split'.2)
      (takeRun before falling last xs) (takeRun before' falling last' ys) := by
  induction hxs generalizing last last' with
  | nil => exact .ok ⟨.nil, .nil⟩
  | cons h hrest ih =>
      rw [takeRun, takeRun, ← hbefore _ _ _ _ h hlast]
      cases before _ last with
      | error e => exact .error e
      | ok b =>
          dsimp only
          split
          · exact (ih h).map fun _ _ hsplit => ⟨.cons h hsplit.1, hsplit.2⟩
          · exact .ok ⟨.nil, .cons h hrest⟩

/-- Where two comparisons answer alike, sorting makes the same moves. -/
theorem sort_alike {xs : List α} {ys : List β} (h : List.Forall₂ T xs ys) :
    Alike (List.Forall₂ T) (sort before xs) (sort before' ys) := by
  cases h with
  | nil => exact .ok .nil
  | cons hx hrest =>
      cases hrest with
      | nil => exact .ok (.cons hx .nil)
      | cons hy hrest =>
          rw [sort, sort, ← hbefore _ _ _ _ hy hx]
          cases before _ _ with
          | error e => exact .error e
          | ok falling =>
              dsimp only
              rcases (takeRun_alike hbefore hy hrest).exists_eq with
                ⟨e, herror, herror'⟩ | ⟨⟨run, more⟩, ⟨run', more'⟩, hrun, hrun', hfirst, hmore⟩
              · rw [herror, herror']
                exact .error e
              · rw [hrun, hrun']
                refine insertAll_alike hbefore hmore ?_
                have hall := List.Forall₂.cons hx (.cons hy hfirst)
                split
                · exact List.rel_reverse hall
                · exact hall

theorem sortDescending_alike {xs : List α} {ys : List β} (h : List.Forall₂ T xs ys) :
    Alike (List.Forall₂ T) (sortDescending before xs) (sortDescending before' ys) :=
  (sort_alike hbefore (List.rel_reverse h)).map fun _ _ hsorted => List.rel_reverse hsorted

end Alike

/-! ### The order of the elements -/

section Order

variable {R : α → α → Prop}

/-- The comparison with an earlier element answers as an order does. -/
def Agrees (before : α → α → Except ε Bool) (R : α → α → Prop) (earlier later : α) : Prop :=
  ∀ b, before later earlier = .ok b → if b then R later earlier else R earlier later

theorem isChain_takeRun {falling : Bool} {last : α} {xs : List α}
    (hxs : (last :: xs).Pairwise (Agrees before R)) {run rest : List α}
    (hrun : takeRun before falling last xs = .ok (run, rest)) :
    (last :: run).IsChain fun x y => if falling then R y x else R x y := by
  induction xs generalizing last run rest with
  | nil =>
      cases hrun
      exact .singleton _
  | cons x xs ih =>
      obtain ⟨hlast, hxs⟩ := List.pairwise_cons.mp hxs
      rw [takeRun] at hrun
      cases hless : before x last with
      | error e =>
          rw [hless] at hrun
          cases hrun
      | ok b =>
          rw [hless] at hrun
          dsimp only at hrun
          split at hrun
          · rename_i heq
            obtain ⟨⟨run, rest⟩, hmore, heq'⟩ := map_eq_ok_iff.mp hrun
            cases heq'
            refine .cons_cons ?_ (ih hxs hmore)
            rw [← beq_iff_eq.mp heq]
            exact hlast x List.mem_cons_self b hless
          · cases hrun
            exact .singleton _

variable [IsTrans α R]

theorem pairwise_append_cons_iff {left right : List α} {middle : α} :
    (left ++ middle :: right).Pairwise R ↔
      (left ++ [middle]).Pairwise R ∧ (middle :: right).Pairwise R := by
  rw [← List.isChain_iff_pairwise, ← List.isChain_iff_pairwise, ← List.isChain_iff_pairwise,
    List.isChain_split]

theorem pairwise_insert {pivot : α} {sorted : List α} (hsorted : sorted.Pairwise R)
    (hagrees : ∀ y ∈ sorted, Agrees before R y pivot) {ys : List α}
    (hys : insert before pivot sorted = .ok ys) : ys.Pairwise R := by
  have hinsert : ∀ {xs zs}, insert before pivot xs = .ok zs → ∀ z ∈ zs, z = pivot ∨ z ∈ xs := by
    intro xs zs hzs z hz
    have hperm : zs.Perm (pivot :: xs) := (insert_ends fun y _ => .anyhow _).of_eq_ok hzs
    exact List.mem_cons.mp (hperm.mem_iff.mp hz)
  fun_induction insert before pivot sorted generalizing ys with
  | case1 sorted hdrop =>
      cases hys
      exact List.pairwise_singleton _ _
  | case2 => cases hys
  | case3 sorted middle right hdrop left hless ih =>
      have hsplit : left ++ middle :: right = sorted := hdrop ▸ List.take_append_drop _ _
      rw [← hsplit] at hsorted hagrees
      obtain ⟨more, hmore, rfl⟩ := map_eq_ok_iff.mp hys
      have hpivot : R pivot middle := hagrees middle (by simp) true hless
      obtain ⟨hleft, hright⟩ := pairwise_append_cons_iff.mp hsorted
      obtain ⟨hleft, -, hmiddle⟩ := List.pairwise_append.mp hleft
      refine pairwise_append_cons_iff.mpr ⟨List.pairwise_append.mpr ⟨?_, ?_, ?_⟩, hright⟩
      · exact ih hleft (fun y hy => hagrees y (List.mem_append_left _ hy)) hmore
      · exact List.pairwise_singleton _ _
      · intro y hy z hz
        rw [List.mem_singleton.mp hz]
        rcases hinsert hmore y hy with rfl | hy
        · exact hpivot
        · exact hmiddle y hy middle List.mem_cons_self
  | case4 sorted middle right hdrop left hless ih =>
      have hsplit : left ++ middle :: right = sorted := hdrop ▸ List.take_append_drop _ _
      rw [← hsplit] at hsorted hagrees
      obtain ⟨more, hmore, rfl⟩ := map_eq_ok_iff.mp hys
      have hpivot : R middle pivot := hagrees middle (by simp) false hless
      obtain ⟨hleft, hright⟩ := pairwise_append_cons_iff.mp hsorted
      obtain ⟨hmiddle, hright⟩ := List.pairwise_cons.mp hright
      refine pairwise_append_cons_iff.mpr ⟨hleft, List.pairwise_cons.mpr ⟨?_, ?_⟩⟩
      · intro y hy
        rcases hinsert hmore y hy with rfl | hy
        · exact hpivot
        · exact hmiddle y hy
      · exact ih hright (fun y hy => hagrees y (by simp [hy])) hmore

theorem pairwise_insertAll {sorted xs : List α} (hsorted : sorted.Pairwise R)
    (hxs : xs.Pairwise (Agrees before R)) (hagrees : ∀ y ∈ sorted, ∀ x ∈ xs, Agrees before R y x)
    {ys : List α} (hys : insertAll before sorted xs = .ok ys) : ys.Pairwise R := by
  induction xs generalizing sorted with
  | nil =>
      cases hys
      exact hsorted
  | cons x xs ih =>
      obtain ⟨hx, hxs⟩ := List.pairwise_cons.mp hxs
      rw [insertAll] at hys
      cases hinsert : insert before x sorted with
      | error e =>
          rw [hinsert] at hys
          cases hys
      | ok next =>
          rw [hinsert] at hys
          have hfirst : ∀ y ∈ sorted, Agrees before R y x :=
            fun y hy => hagrees y hy x List.mem_cons_self
          have hperm : next.Perm (x :: sorted) :=
            (insert_ends fun y _ => .anyhow _).of_eq_ok hinsert
          refine ih (pairwise_insert hsorted hfirst hinsert) hxs (fun y hy z hz => ?_) hys
          rcases List.mem_cons.mp (hperm.mem_iff.mp hy) with rfl | hy
          · exact hx z hz
          · exact hagrees y hy z (List.mem_cons_of_mem x hz)

theorem pairwise_of_isChain {falling : Bool} {xs : List α}
    (hxs : xs.IsChain fun x y => if falling then R y x else R x y) :
    (if falling then xs.reverse else xs).Pairwise R := by
  cases falling with
  | true => exact List.isChain_iff_pairwise.mp (List.isChain_reverse.mpr hxs)
  | false => exact List.isChain_iff_pairwise.mp hxs

/-- Sorting puts the elements into any transitive order with which the comparison of later elements
with earlier ones agrees. -/
theorem pairwise_sort {xs : List α} (hxs : xs.Pairwise (Agrees before R)) {ys : List α}
    (hys : sort before xs = .ok ys) : ys.Pairwise R := by
  revert hys
  fun_cases sort before xs with
  | case1 =>
      rintro ⟨⟩
      exact .nil
  | case2 x =>
      rintro ⟨⟩
      exact List.pairwise_singleton _ _
  | case3 =>
      rintro ⟨⟩
  | case4 =>
      rintro ⟨⟩
  | case5 x y rest falling hless run more hrun first =>
      intro hys
      obtain ⟨hx, hrest⟩ := List.pairwise_cons.mp hxs
      have hchain : first.IsChain fun x y => if falling then R y x else R x y :=
        .cons_cons (hx y List.mem_cons_self falling hless) (isChain_takeRun hrest hrun)
      have hsplit : first ++ more = x :: y :: rest :=
        congrArg (x :: y :: ·) ((takeRun_ends fun _ _ _ _ => .anyhow _).of_eq_ok hrun)
      rw [← hsplit] at hxs
      obtain ⟨-, hmore, hacross⟩ := List.pairwise_append.mp hxs
      refine pairwise_insertAll (pairwise_of_isChain hchain) hmore (fun a ha b hb => ?_) hys
      refine hacross a ?_ b hb
      split at ha
      · exact List.mem_reverse.mp ha
      · exact ha

/-- Sorting into descending order goes by the opposite of the order, through the elements from the
last one on. -/
theorem pairwise_sortDescending {xs : List α}
    (hxs : xs.Pairwise fun earlier later => Agrees before (fun x y => R y x) later earlier)
    {ys : List α} (hys : sortDescending before xs = .ok ys) : ys.Pairwise R := by
  have : IsTrans α fun x y => R y x := ⟨fun x y z hxy hyz => IsTrans.trans z y x hyz hxy⟩
  obtain ⟨sorted, hsorted, rfl⟩ := map_eq_ok_iff.mp hys
  exact List.pairwise_reverse.mpr (pairwise_sort (List.pairwise_reverse.mpr hxs) hsorted)

end Order

end Reshape.Sorting
