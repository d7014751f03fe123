/-!
Stable sorting. A comparison that fails ends the sorting, so that it matters which ones are made:
a first run that is already in order is taken as it is, and one in strictly reverse order is turned
around; the rest is inserted by halving. For fewer than 64 elements these are the comparisons of a
merge sort that begins with natural runs. For more it may make others, and so fail where this
sorting does not, or the other way round.

Main statements: an arrangement by a comparison that cannot fail holds the same elements,
in order, and those that may come in either order as they stood before.
-/

namespace Reshape.Sorting

variable {α ε : Type}

/-- Inserts before the first element that may come after. -/
def place (le : α → α → Bool) (x : α) : List α → List α
  | [] => [x]
  | y :: ys => if le x y then x :: y :: ys else y :: place le x ys

/-- Sorts by a comparison that cannot fail. Elements that may come in either order keep
theirs. -/
def arrange (le : α → α → Bool) : List α → List α
  | [] => []
  | x :: xs => place le x (arrange le xs)

theorem place_perm (le : α → α → Bool) (x : α) (ys : List α) :
    (place le x ys).Perm (x :: ys) := by
  induction ys with
  | nil => exact .refl _
  | cons y ys ih =>
    rw [place]
    split
    · exact .refl _
    · exact (ih.cons y).trans (.swap x y ys)

theorem arrange_perm (le : α → α → Bool) (xs : List α) : (arrange le xs).Perm xs := by
  induction xs with
  | nil => exact .refl _
  | cons x xs ih => exact (place_perm le x _).trans (ih.cons x)

theorem pairwise_place {le : α → α → Bool} (htotal : ∀ a b, le a b = true ∨ le b a = true)
    (htrans : ∀ a b c, le a b = true → le b c = true → le a c = true) (x : α) {ys : List α}
    (hys : ys.Pairwise (le · · = true)) : (place le x ys).Pairwise (le · · = true) := by
  induction ys with
  | nil => exact List.pairwise_singleton _ _
  | cons y ys ih =>
    obtain ⟨hy, hrest⟩ := List.pairwise_cons.1 hys
    rw [place]
    split
    next hle =>
      refine List.pairwise_cons.2 ⟨?_, hys⟩
      intro z hz
      rcases List.mem_cons.1 hz with rfl | hz
      · exact hle
      · exact htrans x y z hle (hy z hz)
    next hnot =>
      refine List.pairwise_cons.2 ⟨?_, ih hrest⟩
      intro z hz
      rcases List.mem_cons.1 ((place_perm le x ys).mem_iff.1 hz) with rfl | hz
      · exact (htotal z y).resolve_left hnot
      · exact hy z hz

theorem pairwise_arrange {le : α → α → Bool}
    (htotal : ∀ a b, le a b = true ∨ le b a = true)
    (htrans : ∀ a b c, le a b = true → le b c = true → le a c = true) (xs : List α) :
    (arrange le xs).Pairwise (le · · = true) := by
  induction xs with
  | nil => exact .nil
  | cons x xs ih => exact pairwise_place htotal htrans x ih

theorem pairwise_place_of_forall {le : α → α → Bool} {R : α → α → Prop} {x : α} {ys : List α}
    (hx : ∀ y ∈ ys, R x y) (hys : ys.Pairwise fun a b => le b a = true → R a b) :
    (place le x ys).Pairwise fun a b => le b a = true → R a b := by
  induction ys with
  | nil => exact List.pairwise_singleton _ _
  | cons y ys ih =>
    obtain ⟨hy, hrest⟩ := List.pairwise_cons.1 hys
    rw [place]
    split
    · exact List.pairwise_cons.2 ⟨fun z hz _ => hx z hz, hys⟩
    next hnot =>
      refine List.pairwise_cons.2 ⟨?_, ih (fun z hz => hx z (List.mem_cons_of_mem y hz)) hrest⟩
      intro z hz hle
      rcases List.mem_cons.1 ((place_perm le x ys).mem_iff.1 hz) with rfl | hz
      · exact absurd hle hnot
      · exact hy z hz hle

theorem pairwise_arrange_of_pairwise {le : α → α → Bool} {R : α → α → Prop} {xs : List α}
    (hxs : xs.Pairwise R) : (arrange le xs).Pairwise fun a b => le b a = true → R a b := by
  induction hxs with
  | nil => exact .nil
  | cons hx _ ih =>
    exact pairwise_place_of_forall (fun y hy => hx y ((arrange_perm le _).mem_iff.1 hy)) ih

/-- Inserts into a sorted list, behind all elements that do not come after. -/
def insert (before : α → α → Except ε Bool) (pivot : α) (sorted : List α) :
    Except ε (List α) :=
  match _h : sorted.drop (sorted.length / 2) with
  | [] => .ok [pivot]
  | middle :: right =>
    let left := sorted.take (sorted.length / 2)
    match before pivot middle with
    | .error e => .error e
    | .ok true => (insert before pivot left).map (· ++ middle :: right)
    | .ok false => (insert before pivot right).map (left ++ middle :: ·)
termination_by sorted.length
decreasing_by
  · have hlen := congrArg List.length _h
    simp only [List.length_drop, List.length_cons] at hlen
    simp only [List.length_take]
    omega
  · have hlen := congrArg List.length _h
    simp only [List.length_drop, List.length_cons] at hlen
    omega

/-- Inserts one element after the other. -/
def insertAll (before : α → α → Except ε Bool) (sorted : List α) :
    List α → Except ε (List α)
  | [] => .ok sorted
  | x :: xs =>
    match insert before x sorted with
    | .error e => .error e
    | .ok sorted => insertAll before sorted xs

/-- Splits off the elements that go on a run after its last one. Each is compared with
the one before it; `falling` says which answer goes on. -/
def takeRun (before : α → α → Except ε Bool) (falling : Bool) (last : α) :
    List α → Except ε (List α × List α)
  | [] => .ok ([], [])
  | x :: xs =>
    match before x last with
    | .error e => .error e
    | .ok b =>
      if b == falling then
        (takeRun before falling x xs).map fun (run, rest) => (x :: run, rest)
      else .ok ([], x :: xs)

def sort (before : α → α → Except ε Bool) : List α → Except ε (List α)
  | [] => .ok []
  | [x] => .ok [x]
  | x :: y :: rest =>
    match before y x with
    | .error e => .error e
    | .ok falling =>
      match takeRun before falling y rest with
      | .error e => .error e
      | .ok (run, rest) =>
        let first := x :: y :: run
        insertAll before (if falling then first.reverse else first) rest

/-- Sorts into descending order. Equal elements keep their order here too. -/
def sortDescending (before : α → α → Except ε Bool) (xs : List α) : Except ε (List α) :=
  (sort before xs.reverse).map List.reverse

end Reshape.Sorting
