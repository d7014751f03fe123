import Reshape.Proofs.Related
import Reshape.Proofs.Value.Arrangement
import Reshape.Proofs.Value.Equality

namespace Reshape

theorem Double.compare_congr {x x' y y' : Double} (hx : x.ordinal = x'.ordinal)
    (hy : y.ordinal = y'.ordinal) : x.compare y = x'.compare y' := by
  rw [compare, compare, hx, hy]

theorem Number.eq_or_ordinal_eq {m n : Number} (h : m.equal n = true) :
    m = n ∨ ∃ x y, m = float x ∧ n = float y ∧ x.ordinal = y.ordinal := by
  cases m with
  | int i =>
      cases n with
      | int j => exact .inl (congrArg int (beq_iff_eq.mp h))
      | float y => cases h
  | float x =>
      cases n with
      | int j => cases h
      | float y => exact .inr ⟨x, y, rfl, rfl, beq_iff_eq.mp h⟩

theorem Number.compare?_congr {m m' n n' : Number} (hm : m.equal m' = true)
    (hn : n.equal n' = true) : m.compare? n = m'.compare? n' := by
  have hleft : m.compare? n = m'.compare? n := by
    rcases eq_or_ordinal_eq hm with rfl | ⟨x, x', rfl, rfl, hx⟩
    · rfl
    · have hcompare : x.compare = x'.compare := funext fun y => Double.compare_congr hx rfl
      cases n <;> rw [compare?, compare?, hcompare]
  have hright : n.compare? m' = n'.compare? m' := by
    rcases eq_or_ordinal_eq hn with rfl | ⟨y, y', rfl, rfl, hy⟩
    · rfl
    · have hcompare : y.compare = y'.compare := funext fun x => Double.compare_congr hy rfl
      cases m' <;> rw [compare?, compare?, hcompare]
  rw [hleft, compare?_swap n m', hright, ← compare?_swap]

namespace Value

/-- Equal documents whose objects have their entries in one order. -/
inductive IsTwin : Value → Value → Prop
  | null : IsTwin null null
  | bool (b : Bool) : IsTwin (bool b) (bool b)
  | number {m n : Number} (h : m.equal n = true) : IsTwin (number m) (number n)
  | string (s : String) : IsTwin (string s) (string s)
  | array {xs ys : List Value} (hitems : List.Forall₂ IsTwin xs ys) :
      IsTwin (array xs) (array ys)
  | object {es fs : Entries Value} (hkeys : Entries.keys es = Entries.keys fs)
      (hvalues : List.Forall₂ IsTwin (es.map Prod.snd) (fs.map Prod.snd)) :
      IsTwin (object es) (object fs)

theorem IsTwin.kind_eq {v w : Value} (h : IsTwin v w) : v.kind = w.kind := by
  cases h <;> rfl

/-- A document that every third one compares with as with another. -/
def ComparesAs (v v' : Value) : Prop :=
  ∀ w w', IsTwin w w' → compare v w = compare v' w'

theorem compareItems_congr {xs xs' ys ys' : List Value} (hxs : List.Forall₂ ComparesAs xs xs')
    (hys : List.Forall₂ IsTwin ys ys') : compareItems xs ys = compareItems xs' ys' := by
  induction hxs generalizing ys ys' with
  | nil => rfl
  | cons hx _ ih =>
      cases hys with
      | nil => rfl
      | cons hy hys => rw [compareItems, compareItems, hx _ _ hy, ih hys]

theorem compareEntries_congr {es es' fs fs' : List (String × Value)}
    (hes : List.Forall₂ (fun e e' => e.1 = e'.1 ∧ ComparesAs e.2 e'.2) es es')
    (hfs : List.Forall₂ (fun f f' => f.1 = f'.1 ∧ IsTwin f.2 f'.2) fs fs') :
    compareEntries es fs = compareEntries es' fs' := by
  induction hes generalizing fs fs' with
  | nil => rfl
  | cons he _ ih =>
      cases hfs with
      | nil => rfl
      | cons hf hfs =>
          rw [compareEntries, compareEntries, he.1, hf.1, he.2 _ _ hf.2, ih hfs]

theorem comparesAs_of_kind {v v' : Value} (hv : v.kind = v'.kind)
    (h : ∀ w w', IsTwin w w' → v.kind? = w.kind? → compare v w = compare v' w') :
    ComparesAs v v' := by
  intro w w' hw
  by_cases hkind : v.kind? = w.kind?
  · exact h w w' hw hkind
  · have hkind' : v'.kind? ≠ w'.kind? := by
      rwa [kind?, ← hv, kind?, ← hw.kind_eq]
    rw [compare_of_kind?_ne hkind, compare_of_kind?_ne hkind', hv, hw.kind_eq]

/-- The order does not tell twins apart. -/
theorem IsTwin.comparesAs {v v' : Value} (hv : v.IsDocument) (h : IsTwin v v') :
    ComparesAs v v' := by
  induction hv generalizing v' with
  | null =>
      refine comparesAs_of_kind h.kind_eq fun w w' hw hkind => ?_
      cases h
      cases hw <;> cases hkind
      rfl
  | bool b =>
      refine comparesAs_of_kind h.kind_eq fun w w' hw hkind => ?_
      cases h
      cases hw <;> cases hkind
      rfl
  | string s =>
      refine comparesAs_of_kind h.kind_eq fun w w' hw hkind => ?_
      cases h
      cases hw <;> cases hkind
      rfl
  | number m =>
      refine comparesAs_of_kind h.kind_eq fun w w' hw hkind => ?_
      cases h with
      | number hm =>
          cases hw <;> cases hkind
          rename_i hn
          rw [compare, compare, Number.compare?_congr hm hn]
  | array xs _ ih =>
      refine comparesAs_of_kind h.kind_eq fun w w' hw hkind => ?_
      cases h with
      | @array _ xs' hxs =>
          cases hw <;> cases hkind
          rename_i ys ys' hys
          have hcompares : List.Forall₂ ComparesAs xs xs' :=
            forall₂_imp_of_mem hxs fun x hx _ _ htwin => ih x hx htwin
          rw [compare, compare, hxs.length_eq, hys.length_eq, compareItems_congr hcompares hys]
  | object es _ _ ih =>
      refine comparesAs_of_kind h.kind_eq fun w w' hw hkind => ?_
      cases h with
      | @object _ es' hkeys hvalues =>
          cases hw <;> cases hkind
          rename_i fs fs' hkeys' hvalues'
          have hes := Entries.forall₂_iff.mpr ⟨hkeys, hvalues⟩
          have hfs := Entries.forall₂_iff.mpr ⟨hkeys', hvalues'⟩
          have hcompares : List.Forall₂ (fun e e' => e.1 = e'.1 ∧ ComparesAs e.2 e'.2) es es' :=
            forall₂_imp_of_mem hes fun e he _ _ htwin => ⟨htwin.1, ih e he htwin.2⟩
          rw [compare, compare, hes.length_eq, hfs.length_eq, compareEntries_congr hcompares hfs]

/-! ### Two sortings -/

theorem sortItems_alike (order : SortOrder) {xs ys : List Value}
    (hxs : ∀ x ∈ xs, x.IsDocument) (h : List.Forall₂ IsTwin xs ys) :
    Alike (List.Forall₂ IsTwin) (order.sortItems xs) (order.sortItems ys) := by
  have hbefore : ∀ v w v' w' : Value, v.IsDocument ∧ IsTwin v v' → w.IsDocument ∧ IsTwin w w' →
      v.before w = v'.before w' := by
    rintro v w v' w' ⟨hv, h⟩ ⟨-, h'⟩
    rw [before, before, h.comparesAs hv w w' h']
  have hdocuments : List.Forall₂ (fun x y => x.IsDocument ∧ IsTwin x y) xs ys :=
    (List.forall₂_and_left xs ys).mpr ⟨hxs, h⟩
  have halike : Alike (List.Forall₂ fun x y => x.IsDocument ∧ IsTwin x y) (order.sortItems xs)
      (order.sortItems ys) := by
    cases order with
    | ascending => exact Sorting.sort_alike hbefore hdocuments
    | descending => exact Sorting.sortDescending_alike hbefore hdocuments
  exact halike.imp fun _ _ hsorted => hsorted.imp fun _ _ => And.right

theorem sortEach_alike {order : SortOrder} {levels : Option Nat} {xs ys : List Value}
    (h : List.Forall₂ (fun x y => Alike IsTwin (sort order levels x) (sort order levels y)) xs ys) :
    Alike (List.Forall₂ IsTwin) (sortEach order levels xs) (sortEach order levels ys) := by
  induction h with
  | nil => exact .ok .nil
  | cons h _ ih =>
      rw [sortEach, sortEach]
      rcases h.exists_eq with ⟨e, herror, herror'⟩ | ⟨w, w', hw, hw', htwin⟩
      · rw [herror, herror']
        exact .error e
      · rw [hw, hw']
        exact ih.map fun _ _ hrest => .cons htwin hrest

theorem sort_array_alike (order : SortOrder) {xs ys : List Value} (hxs : ∀ x ∈ xs, x.IsDocument)
    (h : List.Forall₂ (fun x y => Alike IsTwin (sort order none x) (sort order none y)) xs ys) :
    Alike IsTwin (sort order none (array xs)) (sort order none (array ys)) := by
  rw [sort_array, sort_array]
  rcases (sortEach_alike h).exists_eq with
    ⟨e, herror, herror'⟩ | ⟨sorted, sorted', hsorted, hsorted', htwins⟩
  · rw [herror, herror']
    exact .error e
  · have hdocuments : ∀ w ∈ sorted, w.IsDocument := by
      intro w hw
      obtain ⟨x, hx, hsort⟩ := exists_mem_of_forall₂ (sortEach_eq_ok_iff.mp hsorted) hw
      exact ((hxs x hx).sort_ends order none).of_eq_ok hsort
    rw [hsorted, hsorted']
    exact (sortItems_alike order hdocuments htwins).map fun _ _ => .array

theorem isTwin_sortEntries (order : SortOrder) {es fs sorted sorted' : Entries Value}
    (hnodup : (Entries.keys es).Nodup) (hkeys : (Entries.keys es).Perm (Entries.keys fs))
    (h : ∀ e ∈ es, ∀ f ∈ fs, e.1 = f.1 →
      Alike IsTwin (sort order none e.2) (sort order none f.2))
    (hsorted : sortMembers order none es = .ok sorted)
    (hsorted' : sortMembers order none fs = .ok sorted') :
    IsTwin (object (order.sortEntries sorted)) (object (order.sortEntries sorted')) := by
  have hsame : Entries.keys (order.sortEntries sorted) =
      Entries.keys (order.sortEntries sorted') := by
    refine order.keys_sortEntries_eq ?_ ?_
    · rwa [keys_of_sortMembers hsorted]
    · rwa [keys_of_sortMembers hsorted, keys_of_sortMembers hsorted']
  have htwins : List.Forall₂ (fun e f => e.1 = f.1 ∧ IsTwin e.2 f.2) (order.sortEntries sorted)
      (order.sortEntries sorted') := by
    refine Entries.forall₂_of_keys_eq hsame fun e' he' f' hf' hkey => ?_
    obtain ⟨e, he, hekey, hesort⟩ := exists_mem_of_forall₂ (sortMembers_eq_ok_iff.mp hsorted)
      ((sortEntries_perm order sorted).mem_iff.mp he')
    obtain ⟨f, hf, hfkey, hfsort⟩ := exists_mem_of_forall₂ (sortMembers_eq_ok_iff.mp hsorted')
      ((sortEntries_perm order sorted').mem_iff.mp hf')
    have halike := h e he f hf (by rw [← hekey, hkey, hfkey])
    rw [hesort, hfsort] at halike
    cases halike with
    | ok htwin => exact htwin
  obtain ⟨hkeys, hvalues⟩ := Entries.forall₂_iff.mp htwins
  exact .object hkeys hvalues

theorem sort_object_alike (order : SortOrder) {es fs : Entries Value}
    (hes : (object es).IsDocument) (hfs : (object fs).IsDocument)
    (hnodup : (Entries.keys es).Nodup) (hkeys : (Entries.keys es).Perm (Entries.keys fs))
    (h : ∀ e ∈ es, ∀ f ∈ fs, e.1 = f.1 →
      Alike IsTwin (sort order none e.2) (sort order none f.2)) :
    Alike IsTwin (sort order none (object es)) (sort order none (object fs)) := by
  have hsorts : (∃ sorted, sortMembers order none es = .ok sorted) ↔
      ∃ sorted, sortMembers order none fs = .ok sorted := by
    rw [exists_sortMembers_eq_ok_iff, exists_sortMembers_eq_ok_iff]
    constructor
    · intro hall f hf
      obtain ⟨e, he, hkey⟩ := List.mem_map.mp (hkeys.mem_iff.mpr (List.mem_map_of_mem hf))
      exact (h e he f hf hkey).exists_ok_iff.mp (hall e he)
    · intro hall e he
      obtain ⟨f, hf, hkey⟩ := List.mem_map.mp (hkeys.mem_iff.mp (List.mem_map_of_mem he))
      exact (h e he f hf hkey.symm).exists_ok_iff.mpr (hall f hf)
  have hends := hes.sort_ends order none
  have hends' := hfs.sort_ends order none
  rw [sort_object] at hends hends' ⊢
  rw [sort_object]
  cases hmembers : sortMembers order none es with
  | error x =>
      cases hmembers' : sortMembers order none fs with
      | ok sorted' =>
          obtain ⟨sorted, hsorted⟩ := hsorts.mpr ⟨sorted', hmembers'⟩
          cases hmembers.symm.trans hsorted
      | error x' =>
          -- There is only one error that the values can end in.
          rw [hmembers] at hends
          rw [hmembers'] at hends'
          rw [hends.of_eq_error rfl, hends'.of_eq_error rfl]
          exact .error _
  | ok sorted =>
      obtain ⟨sorted', hmembers'⟩ := hsorts.mp ⟨sorted, hmembers⟩
      rw [hmembers']
      exact .ok (isTwin_sortEntries order hnodup hkeys h hmembers hmembers')

/-! ### Equal documents -/

theorem kind?_eq_of_equal {v w : Value} (h : v.equal w = true) : v.kind? = w.kind? := by
  cases v <;> cases w <;> first | rfl | cases h

theorem equal_of_equal_object {es fs : Entries Value} (hfs : (Entries.keys fs).Nodup)
    (h : equal (object es) (object fs) = true) {e f : String × Value} (he : e ∈ es) (hf : f ∈ fs)
    (hkey : e.1 = f.1) : e.2.equal f.2 = true := by
  rw [equal, Bool.and_eq_true, entriesWithin_iff] at h
  obtain ⟨w, hw, hequal⟩ := h.2 e he
  rw [hkey, Entries.find?_of_mem hfs hf] at hw
  rwa [Option.some.inj hw]

theorem sort_isTwin_of_equal (order : SortOrder) {v w : Value} (hv : v.IsDocument)
    (hw : w.IsDocument) (h : v.equal w = true) :
    Alike IsTwin (sort order none v) (sort order none w) := by
  have hkind := kind?_eq_of_equal h
  induction hv generalizing w with
  | null =>
      cases hw <;> cases hkind
      exact .ok .null
  | bool b =>
      cases hw <;> cases hkind
      rw [equal, beq_iff_eq] at h
      subst h
      exact .ok (.bool b)
  | string s =>
      cases hw <;> cases hkind
      rw [equal, beq_iff_eq] at h
      subst h
      exact .ok (.string s)
  | number m =>
      cases hw <;> cases hkind
      exact .ok (.number h)
  | array xs hxs ih =>
      cases hw <;> cases hkind
      rename_i ys hys
      rw [equal, equalItems_iff] at h
      refine sort_array_alike order hxs (forall₂_imp_of_mem h fun x hx y hy hequal => ?_)
      exact ih x hx (hys y hy) hequal (kind?_eq_of_equal hequal)
  | object es hes hentries ih =>
      cases hw with
      | object fs hfs hentries' =>
          refine sort_object_alike order (.object es hes hentries) (.object fs hfs hentries') hes
            (perm_keys_of_equal (.object es hes hentries) (.object fs hfs hentries') h)
            fun e he f hf hkey => ?_
          have hequal := equal_of_equal_object hfs h he hf hkey
          exact ih e he (hentries' f hf) hequal (kind?_eq_of_equal hequal)
      | _ => cases hkind

/-! ### What twins have in common -/

theorem IsTwin.equal {v w : Value} (hv : v.IsDocument) (h : IsTwin v w) : v.equal w = true := by
  induction hv generalizing w with
  | null =>
      cases h
      rfl
  | bool b =>
      cases h
      simp [Value.equal]
  | string s =>
      cases h
      simp [Value.equal]
  | number m =>
      cases h with
      | number hm => exact hm
  | array xs _ ih =>
      cases h with
      | array hxs =>
          rw [Value.equal, equalItems_iff]
          exact forall₂_imp_of_mem hxs fun x hx _ _ htwin => ih x hx htwin
  | object es hes _ ih =>
      cases h with
      | @object _ fs hkeys hvalues =>
          have htwins := Entries.forall₂_iff.mpr ⟨hkeys, hvalues⟩
          rw [Value.equal, Bool.and_eq_true, beq_iff_eq, entriesWithin_iff]
          refine ⟨htwins.length_eq, fun e he => ?_⟩
          obtain ⟨f, hf, hkey, htwin⟩ := exists_mem_of_forall₂ htwins.flip he
          refine ⟨f.2, ?_, ih e he htwin⟩
          rw [hkey]
          exact Entries.find?_of_mem (hkeys ▸ hes) hf

theorem IsTwin.exists_child? {v w : Value} (h : IsTwin v w) {s : Key.Segment} {a : Value}
    (ha : v.child? s = some a) : ∃ b, w.child? s = some b ∧ IsTwin a b := by
  rcases exists_of_child?_eq_some ha with
    ⟨items, i, rfl, rfl, hi⟩ | ⟨entries, key, rfl, rfl, hkey⟩
  · cases h with
    | array hitems =>
        obtain ⟨b, hb, htwin⟩ := exists_getElem?_of_forall₂ hitems hi
        exact ⟨b, (child?_array _ i).trans hb, htwin⟩
  · cases h with
    | @object _ fs hkeys hvalues =>
        have hrel := Entries.rel_find?_of_forall₂ (Entries.forall₂_iff.mpr ⟨hkeys, hvalues⟩) key
        rw [hkey] at hrel
        cases hfind : Entries.find? fs key with
        | none =>
            rw [hfind] at hrel
            cases hrel
        | some b =>
            rw [hfind] at hrel
            cases hrel with
            | some htwin => exact ⟨b, hfind, htwin⟩

theorem IsTwin.exists_at? {v w : Value} (h : IsTwin v w) {key : Key} {a : Value}
    (ha : v.at? key = some a) : ∃ b, w.at? key = some b ∧ IsTwin a b := by
  induction key generalizing v w with
  | nil =>
      cases ha
      exact ⟨w, rfl, h⟩
  | cons s key ih =>
      obtain ⟨u, hu, ha⟩ := Option.bind_eq_some_iff.mp ha
      obtain ⟨u', hu', htwin⟩ := h.exists_child? hu
      rw [at?_cons, hu']
      exact ih htwin ha

/-- Where one document has an object, the other has one with its keys in the same order. -/
def SameKeyOrder (v w : Value) : Prop :=
  ∀ key entries, v.at? key = some (object entries) →
    ∃ others, w.at? key = some (object others) ∧ Entries.keys entries = Entries.keys others

theorem IsTwin.sameKeyOrder {v w : Value} (h : IsTwin v w) : SameKeyOrder v w := by
  intro key entries hentries
  obtain ⟨b, hb, htwin⟩ := h.exists_at? hentries
  cases htwin with
  | object hkeys _ => exact ⟨_, hb, hkeys⟩

/-- Equal documents, whose objects need not have their entries in one order, both cannot be sorted,
or they are sorted to equal documents whose objects have. -/
theorem sort_alike_of_equal (order : SortOrder) {v w : Value} (hv : v.IsDocument)
    (hw : w.IsDocument) (h : v.equal w = true) :
    Alike (fun v' w' => v'.equal w' = true ∧ SameKeyOrder v' w') (sort order none v)
      (sort order none w) := by
  have htwins := sort_isTwin_of_equal order hv hw h
  have hends := hv.sort_ends order none
  rcases htwins.exists_eq with ⟨e, herror, herror'⟩ | ⟨v', w', hv', hw', htwin⟩
  · rw [herror, herror']
    exact .error e
  · rw [hv', hw']
    exact .ok ⟨htwin.equal (hends.of_eq_ok hv'), htwin.sameKeyOrder⟩

def nullFirst (negative : Bool) : Value :=
  object [("a", null), ("b", floatZero negative)]

def nullLast (negative : Bool) : Value :=
  object [("b", floatZero negative), ("a", null)]

theorem isDocument_nullFirst (negative : Bool) : (nullFirst negative).IsDocument :=
  .object _ (by simp [Entries.keys])
    (List.forall_mem_cons.mpr ⟨.null, List.forall_mem_singleton.mpr (.number _)⟩)

theorem isDocument_nullLast (negative : Bool) : (nullLast negative).IsDocument :=
  .object _ (by simp [Entries.keys])
    (List.forall_mem_cons.mpr ⟨.number _, List.forall_mem_singleton.mpr .null⟩)

theorem sort_alike_of_equal_turned :
    (array [nullLast false, nullFirst true]).IsDocument ∧
      (array [nullFirst true, nullLast false]).IsDocument ∧
      equal (array [nullLast false, nullFirst true])
        (array [nullFirst true, nullLast false]) = true ∧
      compare (nullLast false) (nullFirst true) = .ok .gt ∧
      ∃ v w, sort .ascending none (array [nullLast false, nullFirst true]) = .ok v ∧
        sort .ascending none (array [nullFirst true, nullLast false]) = .ok w ∧
        v.equal w = true ∧ SameKeyOrder v w := by
  have hdocument : (array [nullLast false, nullFirst true]).IsDocument :=
    .array _ (List.forall_mem_cons.mpr ⟨isDocument_nullLast false,
      List.forall_mem_singleton.mpr (isDocument_nullFirst true)⟩)
  have hturned : (array [nullFirst true, nullLast false]).IsDocument :=
    .array _ (List.forall_mem_cons.mpr ⟨isDocument_nullFirst true,
      List.forall_mem_singleton.mpr (isDocument_nullLast false)⟩)
  have hequal : equal (array [nullLast false, nullFirst true])
      (array [nullFirst true, nullLast false]) = true := by rfl
  have halike := sort_alike_of_equal .ascending hdocument hturned hequal
  have hsort : sort .ascending none (array [nullLast false, nullFirst true]) =
      .ok (array [nullFirst false, nullFirst true]) := by cbv
  have hsort' : sort .ascending none (array [nullFirst true, nullLast false]) =
      .ok (array [nullFirst true, nullFirst false]) := by cbv
  rw [hsort, hsort'] at halike
  cases halike with
  | ok h => exact ⟨hdocument, hturned, hequal, by rfl, _, _, hsort, hsort', h⟩

end Value

end Reshape
