import Mathlib
import Reshape.Proofs.Edit.BottomUp
import Reshape.Proofs.Edit.Positions
import Reshape.Query.Engine

/-!
Elements of an array that are taken out by their indices, of which negative ones count from the
end. Main statement: `takesOut_iff`, what is taken out, and when it is what the indices mean.
-/

namespace Reshape.Edit

variable {α : Type}

/-- Whether some index means a position. -/
def IsMeant (length : Nat) (indices : Finset Int) (p : Nat) : Prop :=
  ∃ i ∈ indices, Key.position? length i = some p

instance (length : Nat) (indices : Finset Int) (p : Nat) :
    Decidable (IsMeant length indices p) :=
  inferInstanceAs (Decidable (∃ i ∈ indices, Key.position? length i = some p))

/-- The place of a position from the end, without those that non-negative indices mean. -/
def placeFromEnd (length : Nat) (indices : Finset Int) (p : Nat) : Nat :=
  ((Finset.Ico p length).filter fun q : Nat => (q : Int) ∉ indices).card

/-- The negative indices that are nearer to the end than an index. -/
def nearer (indices : Finset Int) (i : Int) : Finset Int :=
  indices.filter fun j => i < j ∧ j < 0

/-- Whether the removals at indices take out the element at a position. A non-negative index
takes out what it means. Of what these leave, a negative index takes out the element that stands
as many places in front as there are negative indices nearer to the end. -/
def IsTakenOut (length : Nat) (indices : Finset Int) (p : Nat) : Prop :=
  (p : Int) ∈ indices ∨
    ∃ i ∈ indices, i < 0 ∧ (placeFromEnd length indices p : Int) = -i + (nearer indices i).card

instance (length : Nat) (indices : Finset Int) (p : Nat) :
    Decidable (IsTakenOut length indices p) :=
  inferInstanceAs (Decidable (_ ∨ ∃ i ∈ indices, i < 0 ∧ _))

/-- Removal at all places that are written as some indices takes certain elements out of each
array of some length, whatever else the replacement does. -/
def TakesOut (length : Nat) (indices : Finset Int) (out : Nat → Bool) : Prop :=
  ∀ (items : List Value) (locations : List Key), items.length = length →
    (∀ key, key ∈ locations ↔ ∃ i ∈ indices, key = [.index i]) →
    ∀ (m : Type → Type) [Monad m] [LawfulMonad m] (observe : Value → m Unit),
      ∃ seen : List Value,
        all (observed observe fun _ => none) locations (.array items) = do
          forM seen observe
          return .array (without out items)

/-- One removal at an index. -/
def takeOut (items : List α) (index : Int) : List α :=
  match Key.position? items.length index with
  | none => items
  | some p => items.eraseIdx p

section Step

theorem position?_of_nonneg (length : Nat) {index : Int} (hindex : 0 ≤ index) :
    Key.position? length index = if index < length then some index.toNat else none := by
  simp only [Key.position?, if_neg (Int.not_lt.mpr hindex), hindex, true_and]

theorem position?_of_neg (length : Nat) {index : Int} (hindex : index < 0) :
    Key.position? length index =
      if 0 ≤ index + length then some (index + length).toNat else none := by
  have hbehind : index + length < length := by omega
  simp only [Key.position?, if_pos hindex, hbehind, and_true]

theorem takeOut_of_nonneg (items : List α) {index : Int} (hindex : 0 ≤ index) :
    takeOut items index = items.eraseIdx index.toNat := by
  rw [takeOut, position?_of_nonneg _ hindex]
  by_cases hlength : index < items.length
  · rw [if_pos hlength]
  · rw [if_neg hlength]
    have hbehind : items.length ≤ index.toNat := by omega
    exact (List.eraseIdx_of_length_le hbehind).symm

theorem takeOut_of_neg (items : List α) {index : Int} (hindex : index < 0) :
    takeOut items index = (items.reverse.eraseIdx (-index - 1).toNat).reverse := by
  rw [eraseIdx_eq_without, reverse_without_reverse, takeOut, position?_of_neg _ hindex]
  by_cases hlength : 0 ≤ index + items.length
  · rw [if_pos hlength]
    dsimp only
    rw [eraseIdx_eq_without]
    refine without_congr fun p hp => ?_
    rw [Bool.eq_iff_iff, beq_iff_eq, beq_iff_eq]
    omega
  · rw [if_neg hlength]
    refine (without_none items).symm.trans (without_congr fun p hp => ?_)
    symm
    rw [beq_eq_false_iff_ne]
    omega

end Step

section Run

theorem foldl_takeOut_of_nonneg {is : List Int} (his : ∀ i ∈ is, 0 ≤ i) (items : List α) :
    is.foldl takeOut items = (is.map Int.toNat).foldl List.eraseIdx items := by
  induction is generalizing items with
  | nil => rfl
  | cons i is ih =>
      obtain ⟨hi, his⟩ := List.forall_mem_cons.mp his
      rw [List.foldl_cons, takeOut_of_nonneg items hi, ih his, List.map_cons, List.foldl_cons]

theorem foldl_takeOut_of_neg {is : List Int} (his : ∀ i ∈ is, i < 0) (items : List α) :
    is.foldl takeOut items =
      ((is.map fun i => (-i - 1).toNat).foldl List.eraseIdx items.reverse).reverse := by
  induction is generalizing items with
  | nil => exact items.reverse_reverse.symm
  | cons i is ih =>
      obtain ⟨hi, his⟩ := List.forall_mem_cons.mp his
      rw [List.foldl_cons, takeOut_of_neg items hi, ih his, List.reverse_reverse, List.map_cons,
        List.foldl_cons]

theorem eq_filter_append_filter {is : List Int} (his : is.Pairwise (· > ·)) :
    is = is.filter (0 ≤ ·) ++ is.filter (· < 0) := by
  induction is with
  | nil => rfl
  | cons i is ih =>
      obtain ⟨hi, his⟩ := List.pairwise_cons.mp his
      by_cases hsign : 0 ≤ i
      · rw [List.filter_cons_of_pos (by simpa using hsign),
          List.filter_cons_of_neg (by simpa using hsign), List.cons_append, ← ih his]
      · have hnone : is.filter (0 ≤ ·) = [] := by
          rw [List.filter_eq_nil_iff]
          intro j hj
          have := hi j hj
          simp only [decide_eq_true_eq]
          omega
        have hall : is.filter (· < 0) = is := by
          rw [List.filter_eq_self]
          intro j hj
          have := hi j hj
          simp only [decide_eq_true_eq]
          omega
        rw [List.filter_cons_of_neg (by simpa using hsign),
          List.filter_cons_of_pos (by simpa using hsign), hnone, hall, List.nil_append]

theorem mem_map_toNat_iff {is : List Int} (p : Nat) :
    p ∈ (is.filter (0 ≤ ·)).map Int.toNat ↔ (p : Int) ∈ is.toFinset := by
  rw [List.mem_map, List.mem_toFinset]
  constructor
  · rintro ⟨i, hi, rfl⟩
    obtain ⟨hi, hsign⟩ := List.mem_filter.mp hi
    rwa [Int.toNat_of_nonneg (by simpa using hsign)]
  · intro hp
    exact ⟨p, List.mem_filter.mpr ⟨hp, by simp⟩, Int.toNat_natCast p⟩

theorem countP_map_offset {is : List Int} (his : is.Nodup) {i : Int} (hi : i < 0) :
    ((is.filter (· < 0)).map fun j => (-j - 1).toNat).countP (· < (-i - 1).toNat) =
      (nearer is.toFinset i).card := by
  have hnearer : nearer is.toFinset i = (is.filter fun j => decide (i < j ∧ j < 0)).toFinset := by
    ext j
    simp [nearer]
  rw [hnearer, List.toFinset_card_of_nodup (his.filter _), ← List.countP_eq_length_filter,
    List.countP_map, List.countP_filter]
  refine List.countP_congr fun j _ => ?_
  simp only [Function.comp_apply, Bool.and_eq_true, decide_eq_true_eq]
  omega

theorem placeFromEnd_add_keptBefore {length p : Nat} {indices : Finset Int} {out : Nat → Bool}
    (hout : ∀ q : Nat, out q = true ↔ (q : Int) ∈ indices) (hp : p ≤ length) :
    placeFromEnd length indices p + keptBefore out p = keptBefore out length := by
  have hfilter : (Finset.Ico p length).filter (fun q : Nat => (q : Int) ∉ indices) =
      (Finset.Ico p length).filter fun q => out q = false :=
    Finset.filter_congr fun q _ => by rw [← hout, Bool.not_eq_true]
  rw [placeFromEnd, hfilter, keptBefore, keptBefore, Nat.count_eq_card_filter_range,
    Nat.count_eq_card_filter_range, Finset.card_filter, Finset.card_filter, Finset.card_filter,
    Nat.add_comm]
  exact Finset.sum_range_add_sum_Ico _ hp

theorem placeFromEnd_eq {length p : Nat} {indices : Finset Int} {out : Nat → Bool}
    (hout : ∀ q : Nat, out q = true ↔ (q : Int) ∈ indices) (hp : p < length)
    (hkept : (p : Int) ∉ indices) :
    placeFromEnd length indices p = keptBefore out length - 1 - keptBefore out p + 1 := by
  have hself : out p = false := by rwa [← Bool.not_eq_true, hout]
  have hplace := placeFromEnd_add_keptBefore hout hp.le
  have hnext := placeFromEnd_add_keptBefore hout (Nat.succ_le_of_lt hp)
  rw [keptBefore_succ_of_kept hself] at hnext
  omega

theorem exists_offset_iff {is : List Int} (his : is.Nodup) (d : Nat) :
    (∃ q ∈ (is.filter (· < 0)).map fun i => (-i - 1).toNat,
      d = q + ((is.filter (· < 0)).map fun i => (-i - 1).toNat).countP (· < q)) ↔
      ∃ i ∈ is.toFinset, i < 0 ∧ ((d + 1 : Nat) : Int) = -i + (nearer is.toFinset i).card := by
  constructor
  · rintro ⟨q, hq, hd⟩
    obtain ⟨i, hi, rfl⟩ := List.mem_map.mp hq
    obtain ⟨hi, hsign⟩ := List.mem_filter.mp hi
    have hsign : i < 0 := by simpa using hsign
    rw [countP_map_offset his hsign] at hd
    refine ⟨i, List.mem_toFinset.mpr hi, hsign, ?_⟩
    omega
  · rintro ⟨i, hi, hsign, hd⟩
    refine ⟨(-i - 1).toNat, List.mem_map.mpr ⟨i, List.mem_filter.mpr ⟨?_, ?_⟩, rfl⟩, ?_⟩
    · exact List.mem_toFinset.mp hi
    · simpa using hsign
    · rw [countP_map_offset his hsign]
      omega

theorem foldl_takeOut {is : List Int} (his : is.Pairwise (· > ·)) (items : List α) :
    is.foldl takeOut items =
      without (fun p => decide (IsTakenOut items.length is.toFinset p)) items := by
  have hnodup : is.Nodup := his.imp fun hgt => hgt.ne'
  have hfront : ∀ i ∈ is.filter (0 ≤ ·), 0 ≤ i := by simp
  have hback : ∀ i ∈ is.filter (· < 0), i < 0 := by simp
  have hdescending : ((is.filter (0 ≤ ·)).map Int.toNat).Pairwise (· > ·) := by
    rw [List.pairwise_map]
    refine (his.filter _).imp_of_mem fun {i j} hi hj hgt => ?_
    have := hfront j hj
    omega
  have hascending : ((is.filter (· < 0)).map fun i => (-i - 1).toNat).Pairwise (· < ·) := by
    rw [List.pairwise_map]
    refine (his.filter _).imp_of_mem fun {i j} hi hj hgt => ?_
    have := hback i hi
    omega
  conv_lhs => rw [eq_filter_append_filter his]
  rw [List.foldl_append, foldl_takeOut_of_nonneg hfront, foldl_takeOut_of_neg hback,
    foldl_eraseIdx_of_descending hdescending, foldl_eraseIdx_of_ascending hascending,
    reverse_without_reverse, without_without, length_without]
  refine without_congr fun p hp => ?_
  rw [Bool.eq_iff_iff, Bool.or_eq_true, decide_eq_true_eq, decide_eq_true_eq, decide_eq_true_eq,
    mem_map_toNat_iff, exists_offset_iff hnodup, IsTakenOut]
  by_cases hfirst : (p : Int) ∈ is.toFinset
  · exact iff_of_true (Or.inl hfirst) (Or.inl hfirst)
  · have hout : ∀ q : Nat, decide (q ∈ (is.filter (0 ≤ ·)).map Int.toNat) = true ↔
        (q : Int) ∈ is.toFinset := by
      intro q
      rw [decide_eq_true_eq, mem_map_toNat_iff]
    rw [placeFromEnd_eq hout hp hfirst]

end Run

section Edit

variable {m : Type → Type} [Monad m] [LawfulMonad m] (observe : Value → m Unit)

theorem exists_one_takeOut (items : List Value) (i : Int) :
    ∃ seen : List Value, one (observed observe fun _ => none) [.index i] (.array items) = do
      forM seen observe
      return some (.array (takeOut items i)) := by
  rw [one, takeOut]
  cases Key.position? items.length i with
  | none => exact ⟨[], by simp⟩
  | some p => exact ⟨[items[p]?.getD .null], by simp [one, observed, putElement]⟩

theorem exists_inOrder_takeOut (items : List Value) (is : List Int) :
    ∃ seen : List Value,
      inOrder (observed observe fun _ => none) (is.map fun i => [.index i]) (.array items) = do
        forM seen observe
        return .array (is.foldl takeOut items) := by
  induction is generalizing items with
  | nil => exact ⟨[], by simp [inOrder]⟩
  | cons i is ih =>
      obtain ⟨first, hfirst⟩ := exists_one_takeOut observe items i
      obtain ⟨rest, hrest⟩ := ih (takeOut items i)
      refine ⟨first ++ rest, ?_⟩
      rw [List.map_cons, inOrder, hfirst]
      simp only [bind_assoc, pure_bind, Option.getD_some, hrest, List.foldl_cons,
        List.forM_append]

theorem index_lt_of_compare {i j : Int}
    (h : Key.compare [.index i] [.index j] = .lt) : i < j := by
  by_cases hij : Key.Segment.index i = Key.Segment.index j
  · rw [hij, Key.compare_self] at h
    cases h
  · rw [Key.compare_cons_of_ne hij] at h
    exact Std.compare_eq_lt.mp h

theorem exists_pending_eq_map {locations : List Key} {indices : Finset Int}
    (hlocations : ∀ key, key ∈ locations ↔ ∃ i ∈ indices, key = [.index i]) :
    ∃ is : List Int, is.Pairwise (· > ·) ∧ is.toFinset = indices ∧
      pending locations = is.map fun i => [.index i] := by
  have hmem : ∀ key ∈ pending locations, key ∈ Set.range fun i : Int => [Key.Segment.index i] := by
    intro key hkey
    obtain ⟨i, -, rfl⟩ := (hlocations key).mp (mem_pending_iff.mp hkey)
    exact ⟨i, rfl⟩
  obtain ⟨is, his⟩ :
      pending locations ∈ Set.range (List.map fun i : Int => [Key.Segment.index i]) :=
    Set.range_list_map _ ▸ hmem
  refine ⟨is, ?_, ?_, his.symm⟩
  · have hsorted := pairwise_pending locations
    rw [← his, List.pairwise_map] at hsorted
    exact hsorted.imp index_lt_of_compare
  · ext i
    have hpending : [Key.Segment.index i] ∈ pending locations ↔ i ∈ is := by
      rw [← his]
      simp
    rw [List.mem_toFinset, ← hpending, mem_pending_iff, hlocations]
    simp

theorem takesOut_isTakenOut (length : Nat) (indices : Finset Int) :
    TakesOut length indices fun p => decide (IsTakenOut length indices p) := by
  rintro items locations rfl hlocations m _ _ observe
  obtain ⟨is, his, rfl, hpending⟩ := exists_pending_eq_map hlocations
  have hroot : ¬ locations.contains [] = true := by
    rw [List.contains_iff_mem, hlocations]
    rintro ⟨i, -, heq⟩
    cases heq
  obtain ⟨seen, hseen⟩ := exists_inOrder_takeOut observe items is
  refine ⟨seen, ?_⟩
  rw [all, if_neg hroot, hpending, hseen, foldl_takeOut his]

/-- An array of some length without repetitions. -/
def numbered (length : Nat) : List Value :=
  (List.range length).map fun n : Nat => .number (.int n)

theorem nodup_numbered (length : Nat) : (numbered length).Nodup := by
  refine List.Nodup.map (fun n n' h => ?_) List.nodup_range
  injection h with h
  injection h with h
  exact_mod_cast h

theorem TakesOut.unique {length : Nat} {indices : Finset Int} {out out' : Nat → Bool}
    (h : TakesOut length indices out) (h' : TakesOut length indices out') {p : Nat}
    (hp : p < length) : out p = out' p := by
  have hlength : (numbered length).length = length := by simp [numbered]
  have hlocations : ∀ key, key ∈ indices.toList.map (fun i => [Key.Segment.index i]) ↔
      ∃ i ∈ indices, key = [.index i] := by
    simp [eq_comm]
  obtain ⟨seen, hseen⟩ := h _ _ hlength hlocations Id fun _ => pure ()
  obtain ⟨seen', hseen'⟩ := h' _ _ hlength hlocations Id fun _ => pure ()
  have hsame : Value.array (without out (numbered length)) =
      Value.array (without out' (numbered length)) := hseen.symm.trans hseen'
  injection hsame with hsame
  exact eq_of_without_eq (nodup_numbered length) hsame (by rwa [hlength])

end Edit

section Meant

theorem isMeant_iff {length p : Nat} {indices : Finset Int} (hp : p < length) :
    IsMeant length indices p ↔ (p : Int) ∈ indices ∨ (p : Int) - length ∈ indices := by
  constructor
  · rintro ⟨i, hi, hposition⟩
    by_cases hsign : i < 0
    · rw [position?_of_neg length hsign] at hposition
      split at hposition
      · obtain rfl : (i + length).toNat = p := Option.some.inj hposition
        right
        convert hi using 1
        omega
      · cases hposition
    · have hsign : 0 ≤ i := Int.not_lt.mp hsign
      rw [position?_of_nonneg length hsign] at hposition
      split at hposition
      · obtain rfl : i.toNat = p := Option.some.inj hposition
        left
        rwa [Int.toNat_of_nonneg hsign]
      · cases hposition
  · rintro (hfront | hback)
    · refine ⟨p, hfront, ?_⟩
      rw [position?_of_nonneg length (by omega), if_pos (by omega), Int.toNat_natCast]
    · refine ⟨_, hback, ?_⟩
      rw [position?_of_neg length (by omega), if_pos (by omega)]
      congr 1
      omega

theorem placeFromEnd_le (length : Nat) (indices : Finset Int) (p : Nat) :
    placeFromEnd length indices p ≤ length - p := by
  rw [← Nat.card_Ico]
  exact Finset.card_filter_le _ _

theorem placeFromEnd_of_none {length p : Nat} {indices : Finset Int}
    (hnone : ∀ q : Nat, p ≤ q → q < length → (q : Int) ∉ indices) :
    placeFromEnd length indices p = length - p := by
  rw [placeFromEnd, Finset.filter_true_of_mem, Nat.card_Ico]
  intro q hq
  obtain ⟨hpq, hq⟩ := Finset.mem_Ico.mp hq
  exact hnone q hpq hq

theorem placeFromEnd_lt_of_lt {length p q : Nat} {indices : Finset Int} (hpq : p < q)
    (hq : q < length) (hp : (p : Int) ∉ indices) :
    placeFromEnd length indices q < placeFromEnd length indices p := by
  refine Finset.card_lt_card ⟨Finset.filter_subset_filter _ fun r hr => ?_, fun hsub => ?_⟩
  · rw [Finset.mem_Ico] at hr ⊢
    omega
  · have hmem : p ∈ (Finset.Ico p length).filter fun q : Nat => (q : Int) ∉ indices :=
      Finset.mem_filter.mpr ⟨Finset.mem_Ico.mpr ⟨le_rfl, by omega⟩, hp⟩
    have hfrom := Finset.mem_Ico.mp (Finset.mem_filter.mp (hsub hmem)).1
    omega

/-- No other removal moves what a negative index means: all other indices mean positions in front
of it. -/
def IsUndisturbed (length : Nat) (indices : Finset Int) : Prop :=
  ∀ i ∈ indices, i < 0 → -length ≤ i ∧ ∀ j ∈ indices, j ≠ i → 0 ≤ j ∧ j < length + i

instance (length : Nat) (indices : Finset Int) : Decidable (IsUndisturbed length indices) :=
  inferInstanceAs (Decidable (∀ i ∈ indices, i < 0 → _ ∧ ∀ j ∈ indices, _))

theorem isTakenOut_iff_isMeant {length p : Nat} {indices : Finset Int}
    (h : IsUndisturbed length indices) (hp : p < length) :
    IsTakenOut length indices p ↔ IsMeant length indices p := by
  rw [isMeant_iff hp, IsTakenOut]
  by_cases hfront : (p : Int) ∈ indices
  · exact iff_of_true (Or.inl hfront) (Or.inl hfront)
  -- A negative index takes out what it means.
  have hplace : ∀ i ∈ indices, i < 0 →
      (nearer indices i).card = 0 ∧ placeFromEnd length indices (length + i).toNat = -i := by
    intro i hi hsign
    obtain ⟨hrange, hothers⟩ := h i hi hsign
    constructor
    · rw [Finset.card_eq_zero, nearer, Finset.filter_eq_empty_iff]
      intro j hj hnearer
      have := hothers j hj (by omega)
      omega
    · rw [placeFromEnd_of_none]
      · omega
      · intro q hq hlength hmem
        have := hothers q hmem (by omega)
        omega
  refine or_congr_right ⟨?_, fun hback => ?_⟩
  · rintro ⟨i, hi, hsign, htaken⟩
    obtain ⟨hnearer, hself⟩ := hplace i hi hsign
    have hrange := (h i hi hsign).1
    rw [hnearer] at htaken
    have hbound := placeFromEnd_le length indices p
    have hend : (length + i).toNat < length := by omega
    have hfirst : ¬ p < (length + i).toNat := fun hlt => by
      have := placeFromEnd_lt_of_lt hlt hend hfront
      omega
    have heq : (p : Int) - length = i := by omega
    rwa [heq]
  · obtain ⟨hnearer, hself⟩ := hplace _ hback (by omega)
    refine ⟨_, hback, by omega, ?_⟩
    rw [show (length + ((p : Int) - length)).toNat = p by omega] at hself
    rw [hnearer, hself]
    simp

/-- Removal at indices of an array takes out, first, what the non-negative ones mean. A negative
index counts from the end of what is left when its turn comes, so the elements that are meant are
taken out only if the counts agree. They do so if no other removal moves what a negative index
means. -/
theorem takesOut_iff (length : Nat) (indices : Finset Int) :
    TakesOut length indices (fun p => decide (IsTakenOut length indices p)) ∧
    (TakesOut length indices (fun p => decide (IsMeant length indices p)) ↔
      ∀ p < length, IsTakenOut length indices p ↔ IsMeant length indices p) ∧
    (IsUndisturbed length indices →
      TakesOut length indices fun p => decide (IsMeant length indices p)) := by
  have htaken := takesOut_isTakenOut length indices
  have hiff : TakesOut length indices (fun p => decide (IsMeant length indices p)) ↔
      ∀ p < length, IsTakenOut length indices p ↔ IsMeant length indices p := by
    constructor
    · intro hmeant p hp
      exact decide_eq_decide.mp (htaken.unique hmeant hp)
    · intro hagree items locations hlength hlocations m _ _ observe
      obtain ⟨seen, hseen⟩ := htaken items locations hlength hlocations m observe
      refine ⟨seen, hseen.trans ?_⟩
      rw [without_congr fun p hp => decide_eq_decide.mpr (hagree p (hlength ▸ hp))]
  exact ⟨htaken, hiff, fun h => hiff.mpr fun p hp => isTakenOut_iff_isMeant h hp⟩

theorem takesOut_ends :
    IsUndisturbed 3 {0, -1} ∧ TakesOut 3 {0, -1} fun p => decide (p = 0 ∨ p = 2) := by
  have hundisturbed : IsUndisturbed 3 {0, -1} := by decide
  refine ⟨hundisturbed, fun items locations hlength hlocations m _ _ observe => ?_⟩
  obtain ⟨seen, hseen⟩ :=
    (takesOut_iff 3 {0, -1}).2.2 hundisturbed items locations hlength hlocations m observe
  refine ⟨seen, hseen.trans ?_⟩
  have hmeant : ∀ p < 3, IsMeant 3 {0, -1} p ↔ p = 0 ∨ p = 2 := by decide
  rw [without_congr fun p hp => decide_eq_decide.mpr (hmeant p (hlength ▸ hp))]

/-- With the last element gone, the second one from the end is another. -/
theorem edit_lastTwo :
    ∃ query, Query.Path.engine.read "$[-1,-2]" = .ok query ∧
      query.locations (.array (numbered 3)) = .ok [[.index (-1)], [.index (-2)]] ∧
      query.edit (m := Except Fault) (fun _ => .ok none) (.array (numbered 3)) =
        .ok (.array [.number (.int 1)]) ∧
      without (fun p => decide (IsMeant 3 {-1, -2} p)) (numbered 3) = [.number (.int 0)] ∧
      ¬ TakesOut 3 {-1, -2} fun p => decide (IsMeant 3 {-1, -2} p) := by
  have hpath : Query.Path.read "$[-1,-2]" = .ok (.child .root (.indices [-1, -2])) := by
    cbv
  refine ⟨_, Query.Path.engine_read hpath, by rfl, by rfl, by rfl, fun hmeant => ?_⟩
  have hsame := (takesOut_isTakenOut 3 {-1, -2}).unique hmeant (by decide : 0 < 3)
  revert hsame
  decide

end Meant

end Reshape.Edit
