import Mathlib
import Reshape.Proofs.Sorting
import Reshape.Proofs.Value.Place
import Reshape.Proofs.Value.Sort

namespace Reshape

/-! ### The elements of an array -/

namespace Value

/-- Any two of the elements compare, and the order is transitive on them. -/
def IsPreordered (items : List Value) : Prop :=
  (∀ v ∈ items, ∀ w ∈ items, ∃ o, compare v w = .ok o) ∧
    ∀ u ∈ items, ∀ v ∈ items, ∀ w ∈ items, ∀ first second whole,
      compare u v = .ok first → compare v w = .ok second → compare u w = .ok whole →
        first.isLE → second.isLE → whole.isLE

theorem IsPreordered.of_perm {items others : List Value} (h : IsPreordered items)
    (hperm : others.Perm items) : IsPreordered others := by
  obtain ⟨hdefined, htrans⟩ := h
  refine ⟨fun v hv w hw => ?_, fun u hu v hv w hw => ?_⟩
  · exact hdefined v (hperm.mem_iff.mp hv) w (hperm.mem_iff.mp hw)
  · exact htrans u (hperm.mem_iff.mp hu) v (hperm.mem_iff.mp hv) w (hperm.mem_iff.mp hw)

theorem IsPreordered.composesIn {items : List Value} (h : IsPreordered items) {u v w : Value}
    (hu : u ∈ items) (hv : v ∈ items) (hw : w ∈ items) :
    ComposesIn (compare u v) (compare v w) (compare u w) := by
  have hback : ∀ {x y : Value} {o : Ordering}, compare x y = .ok o → compare y x = .ok o.swap :=
    compare_swap_of_eq_ok
  intro first second whole hfirst hsecond hwhole hle hle'
  have hwholeLE := h.2 u hu v hv w hw _ _ _ hfirst hsecond hwhole hle hle'
  -- If the whole is a tie, each part can be gone backwards by way of the other one.
  have haround : whole = .eq → first.swap.isLE ∧ second.swap.isLE := by
    rintro rfl
    constructor
    · exact h.2 v hv w hw u hu _ _ _ hsecond (hback hwhole) (hback hfirst) hle' rfl
    · exact h.2 w hw u hu v hv _ _ _ (hback hwhole) hfirst (hback hsecond) rfl hle
  cases first with
  | gt => cases hle
  | lt =>
      cases whole with
      | lt => rfl
      | eq => cases (haround rfl).1
      | gt => cases hwholeLE
  | eq =>
      cases second with
      | gt => cases hle'
      | lt =>
          cases whole with
          | lt => rfl
          | eq => cases (haround rfl).2
          | gt => cases hwholeLE
      | eq =>
          have hreverse := h.2 w hw v hv u hu _ _ _ (hback hsecond) (hback hfirst) (hback hwhole)
            rfl rfl
          cases whole with
          | lt => cases hreverse
          | eq => rfl
          | gt => cases hwholeLE

end Value

theorem Composes.symm {first second whole : Ordering} (h : Composes first second whole) :
    Composes second first whole := by
  intro hle hle'
  rw [h hle' hle]
  cases first with
  | gt => cases hle'
  | eq => cases second <;> rfl
  | lt =>
      cases second with
      | gt => cases hle
      | _ => rfl

namespace SortOrder

open Value (IsPreordered)

/-- Compares two documents in one direction. -/
def compare (order : SortOrder) (v w : Value) : Except Fault Ordering :=
  match order with
  | ascending => v.compare w
  | descending => w.compare v

/-- An element that stood at some place comes before another: it compares as less, or else as
equal and stood in front. -/
def Precedes (order : SortOrder) (p q : Value × Nat) : Prop :=
  order.compare p.1 q.1 = .ok .lt ∨ order.compare p.1 q.1 = .ok .eq ∧ p.2 < q.2

/-- All elements are put in order. -/
def Arranges (order : SortOrder) (items arranged : List Value) : Prop :=
  ∃ places : List (Value × Nat), places.Perm items.zipIdx ∧
    arranged = places.map Prod.fst ∧ places.Pairwise order.Precedes

theorem compare_swap_of_eq_ok {order : SortOrder} {v w : Value} {o : Ordering}
    (h : order.compare v w = .ok o) : order.compare w v = .ok o.swap := by
  cases order with
  | ascending => exact Value.compare_swap_of_eq_ok h
  | descending => exact Value.compare_swap_of_eq_ok h

theorem composesIn_compare (order : SortOrder) {items : List Value} (h : IsPreordered items)
    {u v w : Value} (hu : u ∈ items) (hv : v ∈ items) (hw : w ∈ items) :
    Value.ComposesIn (order.compare u v) (order.compare v w) (order.compare u w) := by
  cases order with
  | ascending => exact h.composesIn hu hv hw
  | descending =>
      intro first second whole hfirst hsecond hwhole
      exact (h.composesIn hw hv hu second first whole hsecond hfirst hwhole).symm

theorem exists_compare_eq_ok (order : SortOrder) {items : List Value} (h : IsPreordered items)
    {v w : Value} (hv : v ∈ items) (hw : w ∈ items) : ∃ o, order.compare v w = .ok o := by
  cases order with
  | ascending => exact h.1 v hv w hw
  | descending => exact h.1 w hw v hv

variable {order : SortOrder}

theorem Precedes.asymm {p q : Value × Nat} (hpq : order.Precedes p q) : ¬ order.Precedes q p := by
  intro hqp
  rw [Precedes] at hqp
  rcases hpq with hlt | ⟨heq, hlt⟩
  · rw [compare_swap_of_eq_ok hlt] at hqp
    rcases hqp with h | ⟨h, -⟩ <;> cases h
  · rw [compare_swap_of_eq_ok heq] at hqp
    rcases hqp with h | ⟨-, hgt⟩
    · cases h
    · omega

/-- The order of places among the elements of an array. -/
def PrecedesIn (order : SortOrder) (items : List Value) (p q : Value × Nat) : Prop :=
  p.1 ∈ items ∧ q.1 ∈ items ∧ order.Precedes p q

theorem isTrans_precedesIn (order : SortOrder) {items : List Value} (h : IsPreordered items) :
    IsTrans (Value × Nat) (order.PrecedesIn items) := by
  refine ⟨fun p q r hpq hqr => ?_⟩
  obtain ⟨hp, hq, hpq⟩ := hpq
  obtain ⟨-, hr, hqr⟩ := hqr
  refine ⟨hp, hr, ?_⟩
  obtain ⟨whole, hwhole⟩ := order.exists_compare_eq_ok h hp hr
  have hcomposes := order.composesIn_compare h hp hq hr
  rcases hpq with hpq | ⟨hpq, hplaces⟩
  · rcases hqr with hqr | ⟨hqr, -⟩
    · left
      rw [hwhole, hcomposes _ _ _ hpq hqr hwhole rfl rfl]
      rfl
    · left
      rw [hwhole, hcomposes _ _ _ hpq hqr hwhole rfl rfl]
      rfl
  · rcases hqr with hqr | ⟨hqr, hplaces'⟩
    · left
      rw [hwhole, hcomposes _ _ _ hpq hqr hwhole rfl rfl]
      rfl
    · right
      rw [hwhole, hcomposes _ _ _ hpq hqr hwhole rfl rfl]
      exact ⟨rfl, hplaces.trans hplaces'⟩

theorem precedesIn_of_compare {items : List Value} {p q : Value × Nat} (hp : p ∈ items.zipIdx)
    (hq : q ∈ items.zipIdx) (hplaces : p.2 < q.2) {b : Bool}
    (h : (order.compare q.1 p.1).map (· == .lt) = .ok b) :
    if b then order.PrecedesIn items q p else order.PrecedesIn items p q := by
  have hp := List.fst_mem_of_mem_zipIdx hp
  have hq := List.fst_mem_of_mem_zipIdx hq
  obtain ⟨o, ho, rfl⟩ := map_eq_ok_iff.mp h
  have hback : order.compare p.1 q.1 = .ok o.swap := compare_swap_of_eq_ok ho
  cases o with
  | lt => exact ⟨hq, hp, .inl ho⟩
  | eq => exact ⟨hp, hq, .inr ⟨hback, hplaces⟩⟩
  | gt => exact ⟨hp, hq, .inl hback⟩

theorem pairwise_zipIdx (items : List Value) : items.zipIdx.Pairwise fun p q => p.2 < q.2 := by
  rw [← List.pairwise_map (f := Prod.snd), List.zipIdx_map_snd]
  exact List.pairwise_lt_range'

/-- Compares elements at places. -/
def beforeAt (p q : Value × Nat) : Except Fault Bool :=
  p.1.before q.1

def sortPlaces (order : SortOrder) (places : List (Value × Nat)) :
    Except Fault (List (Value × Nat)) :=
  match order with
  | ascending => Sorting.sort beforeAt places
  | descending => Sorting.sortDescending beforeAt places

theorem sortPlaces_alike (order : SortOrder) (items : List Value) :
    Alike (List.Forall₂ fun p v => p.1 = v) (order.sortPlaces items.zipIdx)
      (order.sortItems items) := by
  have hbefore : ∀ (p q : Value × Nat) (v w : Value), p.1 = v → q.1 = w →
      beforeAt p q = v.before w := by
    rintro p q _ _ rfl rfl
    rfl
  have hplaces : List.Forall₂ (fun p v => p.1 = v) items.zipIdx items := by
    rw [← List.forall₂_map_left_iff (f := Prod.fst), List.zipIdx_map_fst]
    exact List.forall₂_same.mpr fun _ _ => rfl
  cases order with
  | ascending => exact Sorting.sort_alike hbefore hplaces
  | descending => exact Sorting.sortDescending_alike hbefore hplaces

theorem pairwise_sortPlaces {items : List Value} (h : IsPreordered items)
    {places : List (Value × Nat)} (hplaces : order.sortPlaces items.zipIdx = .ok places) :
    places.Pairwise order.Precedes := by
  have := order.isTrans_precedesIn h
  suffices hpairwise : places.Pairwise (order.PrecedesIn items) from
    hpairwise.imp fun hpq => hpq.2.2
  cases order with
  | ascending =>
      refine Sorting.pairwise_sort ?_ hplaces
      exact (pairwise_zipIdx items).imp_of_mem fun hp hq hlt b hb =>
        precedesIn_of_compare hp hq hlt hb
  | descending =>
      refine Sorting.pairwise_sortDescending ?_ hplaces
      exact (pairwise_zipIdx items).imp_of_mem fun hp hq hlt b hb =>
        precedesIn_of_compare hp hq hlt hb

theorem exists_arranges (order : SortOrder) {items : List Value} (h : IsPreordered items) :
    ∃ arranged, order.sortItems items = .ok arranged ∧ order.Arranges items arranged := by
  have hbefore : ∀ p ∈ items.zipIdx, ∀ q ∈ items.zipIdx,
      Ends (fun _ => False) (fun _ => True) (beforeAt p q) := by
    intro p hp q hq
    obtain ⟨o, ho⟩ := h.1 p.1 (List.fst_mem_of_mem_zipIdx hp) q.1 (List.fst_mem_of_mem_zipIdx hq)
    rw [beforeAt, Value.before, ho]
    exact .ok trivial
  have hends : Ends (fun _ => False) (·.Perm items.zipIdx) (order.sortPlaces items.zipIdx) := by
    cases order with
    | ascending => exact Sorting.sort_ends hbefore
    | descending => exact Sorting.sortDescending_ends hbefore
  rcases (order.sortPlaces_alike items).exists_eq with
    ⟨e, herror, -⟩ | ⟨places, arranged, hplaces, harranged, hsame⟩
  · exact (hends.of_eq_error herror).elim
  · refine ⟨arranged, harranged, places, hends.of_eq_ok hplaces, ?_, pairwise_sortPlaces h hplaces⟩
    rw [← List.forall₂_eq_eq_eq, List.forall₂_map_right_iff]
    exact hsame.flip.imp fun _ _ heq => heq.symm

theorem Arranges.perm {items arranged : List Value} (h : order.Arranges items arranged) :
    arranged.Perm items := by
  obtain ⟨places, hperm, rfl, -⟩ := h
  have hitems := hperm.map Prod.fst
  rwa [List.zipIdx_map_fst] at hitems

theorem Arranges.unique {items arranged arranged' : List Value}
    (h : order.Arranges items arranged) (h' : order.Arranges items arranged') :
    arranged = arranged' := by
  obtain ⟨places, hperm, rfl, hplaces⟩ := h
  obtain ⟨places', hperm', rfl, hplaces'⟩ := h'
  rw [List.Perm.eq_of_pairwise (fun p q _ _ hpq hqp => (hpq.asymm hqp).elim) hplaces hplaces'
    (hperm.trans hperm'.symm)]

theorem Arranges.again {items arranged : List Value} (h : order.Arranges items arranged) :
    order.Arranges arranged arranged := by
  obtain ⟨places, -, rfl, hplaces⟩ := h
  set arranged := places.map Prod.fst
  have hordered : arranged.Pairwise fun v w =>
      order.compare v w = .ok .lt ∨ order.compare v w = .ok .eq :=
    List.pairwise_map.mpr (hplaces.imp fun hpq => hpq.imp_right And.left)
  rw [← List.zipIdx_map_fst 0 arranged, List.pairwise_map] at hordered
  refine ⟨arranged.zipIdx, .refl _, (List.zipIdx_map_fst 0 arranged).symm, ?_⟩
  refine hordered.imp₂ (fun p q hpq hlt => ?_) (pairwise_zipIdx arranged)
  exact hpq.imp_right fun heq => ⟨heq, hlt⟩

theorem sortItems_of_arranges {items arranged : List Value} (h : IsPreordered items)
    (harranged : order.Arranges items arranged) : order.sortItems arranged = .ok arranged := by
  obtain ⟨again, hagain, harrangedAgain⟩ := order.exists_arranges (h.of_perm harranged.perm)
  rw [hagain, harrangedAgain.unique harranged.again]

/-! ### The entries of an object -/

/-- One key comes before another in one direction. -/
def KeyPrecedes (order : SortOrder) (k l : String) : Prop :=
  match order with
  | ascending => k < l
  | descending => l < k

theorem pairwise_keys_sortEntries (order : SortOrder) {entries : Entries Value}
    (hkeys : (Entries.keys entries).Nodup) :
    (Entries.keys (order.sortEntries entries)).Pairwise order.KeyPrecedes := by
  refine List.pairwise_map.mpr ?_
  cases order with
  | ascending => exact Entries.pairwise_sorted hkeys
  | descending => exact List.pairwise_reverse.mpr (Entries.pairwise_sorted hkeys)

theorem sortEntries_eq_of_perm (order : SortOrder) {entries others : Entries Value}
    (hkeys : (Entries.keys entries).Nodup) (h : entries.Perm others) :
    order.sortEntries entries = order.sortEntries others := by
  cases order with
  | ascending => exact Entries.sorted_eq_of_perm hkeys h
  | descending => exact congrArg List.reverse (Entries.sorted_eq_of_perm hkeys h)

theorem keys_sortEntries_eq (order : SortOrder) {entries others : Entries Value}
    (hkeys : (Entries.keys entries).Nodup) (h : (Entries.keys entries).Perm (Entries.keys others)) :
    Entries.keys (order.sortEntries entries) = Entries.keys (order.sortEntries others) := by
  have hsame : ∀ entries, (Entries.keys (order.sortEntries entries)).Perm (Entries.keys entries) :=
    fun entries => (Value.sortEntries_perm order entries).map Prod.fst
  refine List.Perm.eq_of_pairwise (fun k l _ _ hkl hlk => ?_)
    (order.pairwise_keys_sortEntries hkeys)
    (order.pairwise_keys_sortEntries (h.nodup_iff.mp hkeys)) ?_
  · cases order with
    | ascending => exact absurd (String.lt_trans hkl hlk) (String.lt_irrefl _)
    | descending => exact absurd (String.lt_trans hkl hlk) (String.lt_irrefl _)
  · exact (hsame entries).trans (h.trans (hsame others).symm)

end SortOrder

/-! ### Documents -/

namespace Value

variable {order : SortOrder} {v : Value}

/-- What is sorted at every level: the elements of an array and the values of an object, and then
the array and the object as a whole. -/
inductive IsSorting (order : SortOrder) : Value → Value → Prop
  | null : IsSorting order null null
  | bool (b : Bool) : IsSorting order (bool b) (bool b)
  | number (n : Number) : IsSorting order (number n) (number n)
  | string (s : String) : IsSorting order (string s) (string s)
  | array {items sorted arranged : List Value}
      (hitems : List.Forall₂ (IsSorting order) items sorted)
      (harranged : order.Arranges sorted arranged) :
      IsSorting order (array items) (array arranged)
  | object {entries sorted arranged : Entries Value}
      (hkeys : Entries.keys sorted = Entries.keys entries)
      (hvalues : List.Forall₂ (IsSorting order) (entries.map Prod.snd) (sorted.map Prod.snd))
      (hperm : arranged.Perm sorted)
      (hordered : (Entries.keys arranged).Pairwise order.KeyPrecedes) :
      IsSorting order (object entries) (object arranged)

/-- Once its elements have been sorted, each array inside a document is preordered. -/
def IsSortable (order : SortOrder) (v : Value) : Prop :=
  ∀ key items sorted, v.at? key = some (array items) →
    sortEach order none items = .ok sorted → IsPreordered sorted

/-- A document with a sorting that is not changed by sorting it again. -/
def HasSorting (order : SortOrder) (v : Value) : Prop :=
  ∃ w, sort order none v = .ok w ∧ IsSorting order v w ∧ sort order none w = .ok w

theorem IsSortable.child (h : v.IsSortable order) {s : Key.Segment} {u : Value}
    (hu : v.child? s = some u) : u.IsSortable order := by
  intro key items sorted hitems
  refine h (s :: key) items sorted ?_
  rw [at?_cons, hu]
  exact hitems

theorem HasSorting.scalar (hsort : sort order none v = .ok v) (hv : IsSorting order v v) :
    HasSorting order v :=
  ⟨v, hsort, hv, hsort⟩

theorem HasSorting.array {items : List Value} (hitems : ∀ v ∈ items, HasSorting order v)
    (hsortable : (array items).IsSortable order) : HasSorting order (array items) := by
  choose! f hsort hsorting hagain using hitems
  have heach : sortEach order none items = .ok (items.map f) :=
    sortEach_eq_ok_iff.mpr (List.forall₂_map_right_iff.mpr (List.forall₂_same.mpr hsort))
  have hpreordered : IsPreordered (items.map f) := hsortable [] items _ rfl heach
  obtain ⟨arranged, hsorted, harranged⟩ := order.exists_arranges hpreordered
  have heachAgain : sortEach order none arranged = .ok arranged := by
    refine sortEach_eq_ok_iff.mpr (List.forall₂_same.mpr fun w hw => ?_)
    obtain ⟨v, hv, rfl⟩ := List.mem_map.mp (harranged.perm.mem_iff.mp hw)
    exact hagain v hv
  refine ⟨.array arranged, ?_, .array ?_ harranged, ?_⟩
  · rw [sort_array, heach]
    dsimp only
    rw [hsorted]
    rfl
  · exact List.forall₂_map_right_iff.mpr (List.forall₂_same.mpr hsorting)
  · rw [sort_array, heachAgain]
    dsimp only
    rw [SortOrder.sortItems_of_arranges hpreordered harranged]
    rfl

theorem HasSorting.object {entries : Entries Value} (hkeys : (Entries.keys entries).Nodup)
    (hentries : ∀ e ∈ entries, HasSorting order e.2) : HasSorting order (object entries) := by
  choose! f hsort hsorting hagain using hentries
  set sorted : Entries Value := entries.map fun e => (e.1, f e) with hsorted
  have hsame : Entries.keys sorted = Entries.keys entries := by
    simp [hsorted, Entries.keys]
  have hperm : (order.sortEntries sorted).Perm sorted := sortEntries_perm order sorted
  have hnodup : (Entries.keys sorted).Nodup := hsame ▸ hkeys
  have hnodup' : (Entries.keys (order.sortEntries sorted)).Nodup :=
    (hperm.map Prod.fst).nodup_iff.mpr hnodup
  have hmembers : sortMembers order none entries = .ok sorted := by
    refine sortMembers_eq_ok_iff.mpr (List.forall₂_map_right_iff.mpr (List.forall₂_same.mpr ?_))
    intro e he
    exact ⟨rfl, hsort e he⟩
  have hmembersAgain : sortMembers order none (order.sortEntries sorted) =
      .ok (order.sortEntries sorted) := by
    refine sortMembers_eq_ok_iff.mpr (List.forall₂_same.mpr fun d hd => ⟨rfl, ?_⟩)
    obtain ⟨e, he, rfl⟩ := List.mem_map.mp (hperm.mem_iff.mp hd)
    exact hagain e he
  refine ⟨.object (order.sortEntries sorted), ?_, ?_, ?_⟩
  · rw [sort_object, hmembers]
  · refine .object hsame ?_ hperm (order.pairwise_keys_sortEntries hnodup)
    rw [hsorted, List.map_map, List.forall₂_map_right_iff, List.forall₂_map_left_iff]
    exact List.forall₂_same.mpr hsorting
  · rw [sort_object, hmembersAgain]
    dsimp only
    rw [order.sortEntries_eq_of_perm hnodup' hperm]

/-- A document sorts at every level: elements and values are sorted as they stand, the elements of
an array are then put in order, where those that compare as equal keep theirs, and so are the
entries of an object by their keys. Sorting once more changes nothing. -/
theorem exists_isSorting (order : SortOrder) (hv : v.IsDocument) (h : v.IsSortable order) :
    ∃ w, sort order none v = .ok w ∧ IsSorting order v w ∧ sort order none w = .ok w := by
  change HasSorting order v
  induction hv with
  | null => exact .scalar rfl .null
  | bool b => exact .scalar rfl (.bool b)
  | number n => exact .scalar rfl (.number n)
  | string s => exact .scalar rfl (.string s)
  | array items _ ih =>
      refine .array (fun v hv => ih v hv ?_) h
      obtain ⟨i, hi⟩ := List.mem_iff_getElem?.mp hv
      exact h.child ((child?_array items i).trans hi)
  | object entries hkeys _ ih =>
      refine .object hkeys fun e he => ih e he ?_
      exact h.child (s := .ident e.1) (Entries.find?_of_mem hkeys he)

/-! ### Documents that can be sorted -/

variable {P : Number → Prop}

theorem IsOver.child? (hv : v.IsOver P) {s : Key.Segment} {u : Value}
    (hu : v.child? s = some u) : u.IsOver P := by
  rcases exists_of_child?_eq_some hu with
    ⟨items, i, rfl, -, hi⟩ | ⟨entries, key, rfl, -, hkey⟩
  · exact isOver_array_iff.mp hv u (List.mem_of_getElem? hi)
  · exact (isOver_object_iff.mp hv).2 _ (Entries.mem_of_find? hkey)

theorem IsOver.at? (hv : v.IsOver P) {key : Key} {w : Value} (h : v.at? key = some w) :
    w.IsOver P := by
  induction key generalizing v with
  | nil =>
      cases h
      exact hv
  | cons s key ih =>
      obtain ⟨u, hu, hw⟩ := Option.bind_eq_some_iff.mp h
      exact ih (hv.child? hu) hw

/-- No two integers fall together with one binary64 number, and no integer is too large to be
compared with one. -/
theorem IsOver.isSortable (hP : Number.Separated P) (hmixed : AllowsMixed P fun _ => False)
    (hv : v.IsOver P) (order : SortOrder) : v.IsSortable order := by
  intro key items sorted hitems hsorted
  have hitems : ∀ w ∈ items, w.IsOver P := isOver_array_iff.mp (hv.at? hitems)
  have hsorted : ∀ w ∈ sorted, w.IsOver P :=
    (sortEach_ends fun w hw => sort_ends hmixed order none (hitems w hw)).of_eq_ok hsorted
  constructor
  · intro u hu w hw
    cases hcompare : compare u w with
    | error e =>
        exact ((compare_ends hmixed (hsorted u hu) (hsorted w hw)).of_eq_error hcompare).elim
    | ok o => exact ⟨o, rfl⟩
  · intro a ha b hb c hc
    exact isTransitiveOver_of_separated hP a b c (hsorted a ha) (hsorted b hb) (hsorted c hc)

/-! ### Two zeros -/

def floatZero (negative : Bool) : Value :=
  number (.float (.zero negative))

/-- Two zeros, and null between them. -/
def zerosDocument : Value :=
  object [("a", null), ("b", array [floatZero false, null, floatZero true])]

theorem zerosDocument_isOver : zerosDocument.IsOver fun n => n.int? = none := by
  refine .object (by decide) (List.forall_mem_cons.mpr ⟨.null, List.forall_mem_singleton.mpr ?_⟩)
  refine .array fun v hv => ?_
  simp only [List.mem_cons, List.not_mem_nil, or_false] at hv
  rcases hv with rfl | rfl | rfl
  · exact .number rfl
  · exact .null
  · exact .number rfl

theorem exists_isSorting_zeros :
    zerosDocument.IsDocument ∧ zerosDocument.IsSortable .descending ∧
      IsSorting .descending zerosDocument
        (object [("b", array [floatZero false, floatZero true, null]), ("a", null)]) := by
  have hdocument := zerosDocument_isOver.isDocument
  have hsortable : zerosDocument.IsSortable .descending :=
    zerosDocument_isOver.isSortable (fun _ _ _ hi => nomatch hi) (fun _ _ hi => nomatch hi) _
  obtain ⟨w, hsort, hsorting, -⟩ := exists_isSorting .descending hdocument hsortable
  refine ⟨hdocument, hsortable, ?_⟩
  have hresult : sort .descending none zerosDocument =
      .ok (object [("b", array [floatZero false, floatZero true, null]), ("a", null)]) := by cbv
  rwa [← Except.ok.inj (hresult.symm.trans hsort)] at hsorting

end Value

end Reshape
