import Reshape.Proofs.Related
import Reshape.Proofs.Sorting
import Reshape.Proofs.Value.Order
import Reshape.Value.Sort

namespace Reshape.Value

variable {P : Number → Prop} {E : Fault → Prop} {v w : Value}

/-! ### Sorting -/

theorem sortItems_ends (hE : AllowsMixed P E) (order : SortOrder) {items : List Value}
    (hitems : ∀ v ∈ items, v.IsOver P) : Ends E (·.Perm items) (order.sortItems items) := by
  have hbefore : ∀ v ∈ items, ∀ w ∈ items, Ends E (fun _ => True) (before v w) := by
    intro v hv w hw
    exact (compare_ends hE (hitems v hv) (hitems w hw)).map fun _ _ => trivial
  cases order with
  | ascending => exact Sorting.sort_ends hbefore
  | descending => exact Sorting.sortDescending_ends hbefore

theorem sortEntries_perm (order : SortOrder) (entries : Entries Value) :
    (order.sortEntries entries).Perm entries := by
  cases order with
  | ascending => exact Sorting.arrange_perm _ entries
  | descending => exact (List.reverse_perm _).trans (Sorting.arrange_perm _ entries)

theorem sortEntries_isOver {entries : Entries Value} (h : (object entries).IsOver P)
    (order : SortOrder) : (object (order.sortEntries entries)).IsOver P := by
  obtain ⟨hkeys, hentries⟩ := isOver_object_iff.mp h
  have hperm := sortEntries_perm order entries
  refine .object ?_ fun e he => hentries e (hperm.mem_iff.mp he)
  exact ((hperm.map Prod.fst).nodup_iff).mpr hkeys

theorem sortEach_eq_mapM (order : SortOrder) (levels : Option Nat) (items : List Value) :
    sortEach order levels items = items.mapM (sort order levels) := by
  induction items with
  | nil => rfl
  | cons v vs ih =>
      rw [sortEach, ih, List.mapM_cons]
      cases sort order levels v <;> rfl

theorem sortMembers_eq_mapM (order : SortOrder) (levels : Option Nat) (entries : Entries Value) :
    sortMembers order levels entries =
      entries.mapM fun e => (sort order levels e.2).map (e.1, ·) := by
  induction entries with
  | nil => rfl
  | cons e rest ih =>
      rw [sortMembers, ih, List.mapM_cons]
      cases sort order levels e.2 <;> rfl

theorem mapM_entries_ends {f : Value → Except Fault Value} {Q : Value → Prop}
    {entries : Entries Value} (hf : ∀ e ∈ entries, Ends E Q (f e.2)) :
    Ends E (fun fs : Entries Value => Entries.keys fs = Entries.keys entries ∧
      ∀ e ∈ fs, Q e.2) (entries.mapM fun e => (f e.2).map (e.1, ·)) := by
  induction entries with
  | nil =>
      rw [List.mapM_nil]
      exact .ok ⟨rfl, nofun⟩
  | cons e rest ih =>
      obtain ⟨he, hrest⟩ := List.forall_mem_cons.mp hf
      rw [List.mapM_cons]
      have hfirst : Ends E (fun d : String × Value => d.1 = e.1 ∧ Q d.2)
          ((f e.2).map (e.1, ·)) := he.map fun _ hw => ⟨rfl, hw⟩
      refine hfirst.bind fun d hd => (ih hrest).bind fun fs hfs => .ok ⟨?_, ?_⟩
      · rw [Entries.keys_cons, Entries.keys_cons, hd.1, hfs.1]
      · exact List.forall_mem_cons.mpr ⟨hd.2, hfs.2⟩

theorem sortEach_ends {order : SortOrder} {levels : Option Nat} {items : List Value}
    (h : ∀ v ∈ items, Ends E (·.IsOver P) (sort order levels v)) :
    Ends E (fun vs => ∀ v ∈ vs, v.IsOver P) (sortEach order levels items) := by
  rw [sortEach_eq_mapM]
  exact Ends.mapM h

theorem sort_ends (hE : AllowsMixed P E) (order : SortOrder) (levels : Option Nat)
    (hv : v.IsOver P) : Ends E (·.IsOver P) (sort order levels v) := by
  have hitems : ∀ {items : List Value}, (∀ v ∈ items, v.IsOver P) →
      Ends E (·.IsOver P) ((order.sortItems items).map array) := by
    intro items hitems
    refine (sortItems_ends hE order hitems).map fun vs hperm => ?_
    exact .array fun v hv => hitems v (hperm.mem_iff.mp hv)
  induction hv generalizing levels with
  | @array items hover ih =>
      unfold sort
      split
      · exact hitems hover
      · have heach := sortEach_ends fun v hv => ih v hv (innerLevels levels)
        split
        · rename_i e herror
          exact .error (heach.of_eq_error herror)
        · rename_i sorted hsorted
          exact hitems (heach.of_eq_ok hsorted)
  | @object entries hkeys hover ih =>
      unfold sort
      split
      · exact .ok (sortEntries_isOver (.object hkeys hover) order)
      · have heach := mapM_entries_ends fun e he => ih e he (innerLevels levels)
        rw [sortMembers_eq_mapM]
        split
        · rename_i e herror
          exact .error (heach.of_eq_error herror)
        · rename_i sorted hsorted
          obtain ⟨hsame, hsortedOver⟩ := heach.of_eq_ok hsorted
          exact .ok (sortEntries_isOver (.object (hsame ▸ hkeys) hsortedOver) order)
  | null => exact .ok .null
  | bool b => exact .ok (.bool b)
  | number hn => exact .ok (.number hn)
  | string s => exact .ok (.string s)

/-! ### Sorting at every level -/

theorem sort_array_succ (order : SortOrder) (levels : Option Nat) (items : List Value) :
    sort order (levels.map (· + 1)) (array items) =
      match sortEach order levels items with
      | .error e => .error e
      | .ok sorted => (order.sortItems sorted).map array := by
  cases levels <;> rw [sort] <;> first | rfl | nofun

theorem sort_object_succ (order : SortOrder) (levels : Option Nat) (entries : Entries Value) :
    sort order (levels.map (· + 1)) (object entries) =
      match sortMembers order levels entries with
      | .error e => .error e
      | .ok sorted => .ok (object (order.sortEntries sorted)) := by
  cases levels <;> rw [sort] <;> first | rfl | nofun

theorem sort_array (order : SortOrder) (items : List Value) :
    sort order none (array items) =
      match sortEach order none items with
      | .error e => .error e
      | .ok sorted => (order.sortItems sorted).map array :=
  sort_array_succ order none items

theorem sort_object (order : SortOrder) (entries : Entries Value) :
    sort order none (object entries) =
      match sortMembers order none entries with
      | .error e => .error e
      | .ok sorted => .ok (object (order.sortEntries sorted)) :=
  sort_object_succ order none entries

theorem sortEach_eq_ok_iff {order : SortOrder} {levels : Option Nat} {items sorted : List Value} :
    sortEach order levels items = .ok sorted ↔
      List.Forall₂ (fun v w => sort order levels v = .ok w) items sorted := by
  rw [sortEach_eq_mapM, mapM_eq_ok_iff]

theorem sortMembers_eq_ok_iff {order : SortOrder} {levels : Option Nat}
    {entries sorted : List (String × Value)} :
    sortMembers order levels entries = .ok sorted ↔
      List.Forall₂ (fun e f => f.1 = e.1 ∧ sort order levels e.2 = .ok f.2) entries sorted := by
  have hentry : ∀ e f : String × Value, (sort order levels e.2).map (e.1, ·) = .ok f ↔
      f.1 = e.1 ∧ sort order levels e.2 = .ok f.2 := by
    rintro e ⟨key, w⟩
    rw [map_eq_ok_iff]
    simp [and_comm]
  simp only [sortMembers_eq_mapM, mapM_eq_ok_iff, hentry]

theorem keys_of_sortMembers {order : SortOrder} {levels : Option Nat}
    {entries sorted : List (String × Value)}
    (h : sortMembers order levels entries = .ok sorted) :
    Entries.keys sorted = Entries.keys entries := by
  have hsame := (sortMembers_eq_ok_iff.mp h).flip
  exact (Entries.forall₂_iff (R := fun w v => sort order levels v = .ok w)).mp hsame |>.1

theorem exists_sortMembers_eq_ok_iff {order : SortOrder} {levels : Option Nat}
    {entries : List (String × Value)} :
    (∃ sorted, sortMembers order levels entries = .ok sorted) ↔
      ∀ e ∈ entries, ∃ w, sort order levels e.2 = .ok w := by
  constructor
  · rintro ⟨sorted, hsorted⟩ e he
    obtain ⟨f, -, hf⟩ := exists_mem_of_forall₂ (sortMembers_eq_ok_iff.mp hsorted).flip he
    exact ⟨f.2, hf.2⟩
  · intro h
    choose! f hf using h
    refine ⟨entries.map fun e => (e.1, f e), sortMembers_eq_ok_iff.mpr ?_⟩
    exact List.forall₂_map_right_iff.mpr (List.forall₂_same.mpr fun e he => ⟨rfl, hf e he⟩)

/-- Documents are sorted to documents, if all their comparisons can be made. -/
theorem IsDocument.sort_ends (hv : v.IsDocument) (order : SortOrder) (levels : Option Nat) :
    Ends (· = .integerTooLarge) IsDocument (sort order levels v) := by
  have hmixed : AllowsMixed (fun _ => True) (· = .integerTooLarge) := fun _ _ _ _ _ => rfl
  have hover : v.IsOver fun _ => True := isOver_iff.mpr ⟨hv, fun _ _ => trivial⟩
  exact (Value.sort_ends hmixed order levels hover).imp fun _ => IsOver.isDocument

end Reshape.Value
