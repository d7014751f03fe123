import Reshape.Proofs.Number.Order
import Reshape.Proofs.Outcome
import Reshape.Proofs.Value.Numbers
import Reshape.Value.Order

/-!
The order of documents as a preorder. Main statements: `mirrors_compare`, `compare_ends`, and
`compare_isPreorder_iff`, that the order is transitive on the documents over some numbers exactly
when no two integers among these fall together with one binary64 number.
-/

namespace Reshape.Value

open Std

/-! ### Comparing backwards -/

/-- Two comparisons with swapped outcomes or one failure. Of two bare numbers each may name
its own. -/
def Mirrors (x y : Except Fault Ordering) : Prop :=
  y = x.map Ordering.swap ∨
    ∃ s t, x = .error (.bareNumber s) ∧ y = .error (.bareNumber t)

theorem Mirrors.tied {first first' next next' : Except Fault Ordering} (h : Mirrors first first')
    (hnext : Mirrors next next') : Mirrors (tied first next) (tied first' next') := by
  rcases h with rfl | ⟨s, t, rfl, rfl⟩
  · cases first with
    | error e => exact .inl rfl
    | ok o =>
        cases o with
        | eq => exact hnext
        | _ => exact .inl rfl
  · exact .inr ⟨s, t, rfl, rfl⟩

theorem Mirrors.eq_ok {x y : Except Fault Ordering} {o : Ordering} (h : Mirrors x y)
    (hx : x = .ok o) : y = .ok o.swap := by
  subst hx
  rcases h with rfl | ⟨s, t, hx, -⟩
  · rfl
  · cases hx

theorem mirrors_ok {α : Type} [Ord α] [OrientedOrd α] (a b : α) :
    Mirrors (.ok (Ord.compare a b)) (.ok (Ord.compare b a)) :=
  .inl (congrArg Except.ok OrientedOrd.eq_swap)

theorem compare_of_kind?_ne {v w : Value} (h : v.kind? ≠ w.kind?) :
    compare v w =
      match v.kind, w.kind with
      | .ok k, .ok l => .ok (Ord.compare k.rank l.rank)
      | .error e, _ => .error e
      | _, .error e => .error e := by
  cases v <;> cases w <;> first | rfl | exact absurd rfl h

theorem mirrors_of_kind?_ne {v w : Value} (h : v.kind? ≠ w.kind?) :
    Mirrors (compare v w) (compare w v) := by
  rw [compare_of_kind?_ne h, compare_of_kind?_ne h.symm]
  rw [kind?, kind?] at h
  cases hv : v.kind with
  | error e =>
      cases hw : w.kind with
      | error e' => exact absurd (by rw [hv, hw]; rfl) h
      | ok l => exact .inl rfl
  | ok k =>
      cases w.kind with
      | error e => exact .inl rfl
      | ok l => exact mirrors_ok k.rank l.rank

mutual

/-- The outcome of a comparison, and its failure, does not depend on which document comes first. -/
theorem mirrors_compare (v w : Value) : Mirrors (compare v w) (compare w v) := by
  by_cases hkind : v.kind? = w.kind?
  · cases v with
    | null =>
        cases w with
        | null => exact .inl rfl
        | _ => cases hkind
    | bare x =>
        cases w with
        | bare y => exact .inr ⟨_, _, rfl, rfl⟩
        | _ => cases hkind
    | bool a =>
        cases w with
        | bool b => exact mirrors_ok a b
        | _ => cases hkind
    | string s =>
        cases w with
        | string t => exact mirrors_ok s t
        | _ => cases hkind
    | number m =>
        cases w with
        | number n =>
            left
            rw [compare, compare, Number.compare?_swap m n]
            cases m.compare? n <;> rfl
        | _ => cases hkind
    | array xs =>
        cases w with
        | array ys =>
            rw [compare, compare]
            exact (mirrors_ok xs.length ys.length).tied (mirrors_compareItems xs ys)
        | _ => cases hkind
    | object es =>
        cases w with
        | object fs =>
            rw [compare, compare]
            exact (mirrors_ok es.length fs.length).tied (mirrors_compareEntries es fs)
        | _ => cases hkind
  · exact mirrors_of_kind?_ne hkind

theorem mirrors_compareItems (xs ys : List Value) :
    Mirrors (compareItems xs ys) (compareItems ys xs) := by
  cases xs with
  | nil => cases ys <;> exact .inl rfl
  | cons x xs =>
      cases ys with
      | nil => exact .inl rfl
      | cons y ys =>
          rw [compareItems, compareItems]
          exact (mirrors_compare x y).tied (mirrors_compareItems xs ys)

theorem mirrors_compareEntries (es fs : List (String × Value)) :
    Mirrors (compareEntries es fs) (compareEntries fs es) := by
  cases es with
  | nil => cases fs <;> exact .inl rfl
  | cons e es =>
      cases fs with
      | nil => exact .inl rfl
      | cons f fs =>
          obtain ⟨k, v⟩ := e
          obtain ⟨l, w⟩ := f
          rw [compareEntries, compareEntries]
          exact (mirrors_ok k l).tied ((mirrors_compare v w).tied (mirrors_compareEntries es fs))

end

theorem compare_swap_of_eq_ok {v w : Value} {o : Ordering} (h : compare v w = .ok o) :
    compare w v = .ok o.swap :=
  (mirrors_compare v w).eq_ok h

/-! ### Whether there is an outcome -/

section Ends

variable {P : Number → Prop} {E : Fault → Prop} {v w : Value}

/-- Where numbers occur of which an integer is too large to be compared with a binary64 number,
the fault of that comparison is allowed for. -/
def AllowsMixed (P : Number → Prop) (E : Fault → Prop) : Prop :=
  ∀ i x, P (.int i) → P (.float x) → Double.ofInt? i = none → E .integerTooLarge

theorem compare_number_ends (hE : AllowsMixed P E) {m n : Number} (hm : P m) (hn : P n) :
    Ends E (fun _ => True) (compare (number m) (number n)) := by
  rw [compare]
  split
  · exact .ok trivial
  · rename_i hnone
    apply Ends.error
    cases m with
    | int i =>
        cases n with
        | int j => cases hnone
        | float x => exact hE i x hm hn (Option.map_eq_none_iff.mp hnone)
    | float x =>
        cases n with
        | int j => exact hE j x hn hm (Option.map_eq_none_iff.mp hnone)
        | float y => cases hnone

theorem tied_ends {first next : Except Fault Ordering} (hfirst : Ends E (fun _ => True) first)
    (hnext : Ends E (fun _ => True) next) : Ends E (fun _ => True) (tied first next) := by
  cases hfirst with
  | error he => exact .error he
  | @ok o _ =>
      cases o with
      | eq => exact hnext
      | _ => exact .ok trivial

theorem compareItems_ends {xs ys : List Value}
    (h : ∀ x ∈ xs, ∀ y ∈ ys, Ends E (fun _ => True) (compare x y)) :
    Ends E (fun _ => True) (compareItems xs ys) := by
  induction xs generalizing ys with
  | nil => exact .ok trivial
  | cons x xs ih =>
      cases ys with
      | nil => exact .ok trivial
      | cons y ys =>
          rw [compareItems]
          refine tied_ends (h x List.mem_cons_self y List.mem_cons_self) (ih fun a ha b hb => ?_)
          exact h a (List.mem_cons_of_mem x ha) b (List.mem_cons_of_mem y hb)

theorem compareEntries_ends {es fs : List (String × Value)}
    (h : ∀ e ∈ es, ∀ f ∈ fs, Ends E (fun _ => True) (compare e.2 f.2)) :
    Ends E (fun _ => True) (compareEntries es fs) := by
  induction es generalizing fs with
  | nil => exact .ok trivial
  | cons e es ih =>
      cases fs with
      | nil => exact .ok trivial
      | cons f fs =>
          rw [compareEntries]
          refine tied_ends (.ok trivial) ?_
          refine tied_ends (h e List.mem_cons_self f List.mem_cons_self) (ih fun a ha b hb => ?_)
          exact h a (List.mem_cons_of_mem e ha) b (List.mem_cons_of_mem f hb)

theorem IsOver.exists_kind (hv : v.IsOver P) : ∃ k, v.kind = .ok k := by
  cases hv <;> exact ⟨_, rfl⟩

theorem compare_ends_of_kind? (hv : v.IsOver P) (hw : w.IsOver P)
    (h : v.kind? = w.kind? → Ends E (fun _ => True) (compare v w)) :
    Ends E (fun _ => True) (compare v w) := by
  by_cases hkind : v.kind? = w.kind?
  · exact h hkind
  · obtain ⟨k, hk⟩ := hv.exists_kind
    obtain ⟨l, hl⟩ := hw.exists_kind
    rw [compare_of_kind?_ne hkind, hk, hl]
    exact .ok trivial

/-- Two documents compare, unless an integer of one is too large for a binary64 number of the
other. -/
theorem compare_ends (hE : AllowsMixed P E) (hv : v.IsOver P) (hw : w.IsOver P) :
    Ends E (fun _ => True) (compare v w) := by
  induction hv generalizing w with
  | null =>
      refine compare_ends_of_kind? .null hw fun hkind => ?_
      cases hw <;> cases hkind
      exact .ok trivial
  | bool b =>
      refine compare_ends_of_kind? (.bool b) hw fun hkind => ?_
      cases hw <;> cases hkind
      exact .ok trivial
  | string s =>
      refine compare_ends_of_kind? (.string s) hw fun hkind => ?_
      cases hw <;> cases hkind
      exact .ok trivial
  | number hm =>
      refine compare_ends_of_kind? (.number hm) hw fun hkind => ?_
      cases hw <;> cases hkind
      rename_i hn
      exact compare_number_ends hE hm hn
  | array hitems ih =>
      refine compare_ends_of_kind? (.array hitems) hw fun hkind => ?_
      cases hw <;> cases hkind
      rename_i hys
      rw [compare]
      exact tied_ends (.ok trivial) (compareItems_ends fun x hx y hy => ih x hx (hys y hy))
  | object hkeys hentries ih =>
      refine compare_ends_of_kind? (.object hkeys hentries) hw fun hkind => ?_
      cases hw <;> cases hkind
      rename_i hfs
      rw [compare]
      exact tied_ends (.ok trivial) (compareEntries_ends fun e he f hf => ih e he (hfs f hf))

end Ends

theorem IsDocument.compare_swap {v w : Value} (hv : v.IsDocument) (hw : w.IsDocument) :
    compare w v = (compare v w).map Ordering.swap := by
  have hall : ∀ u : Value, u.IsDocument → u.IsOver fun _ => True :=
    fun u hu => hu.isOver fun _ _ => trivial
  have hends : Ends (· = Fault.integerTooLarge) (fun _ => True) (compare v w) :=
    compare_ends (fun _ _ _ _ _ => rfl) (hall v hv) (hall w hw)
  rcases mirrors_compare v w with hswap | ⟨s, t, hfault, -⟩
  · exact hswap
  · cases hends.of_eq_error hfault

/-! ### Comparing in a row -/

/-- Three comparisons whose outcomes, if there are any, make one another. -/
def ComposesIn (first second whole : Except Fault Ordering) : Prop :=
  ∀ o p q, first = .ok o → second = .ok p → whole = .ok q → Composes o p q

theorem composesIn_ok {o p q : Ordering} (h : Composes o p q) :
    ComposesIn (.ok o) (.ok p) (.ok q) := by
  rintro _ _ _ ⟨⟩ ⟨⟩ ⟨⟩
  exact h

theorem exists_of_tied_eq_ok {first next : Except Fault Ordering} {o : Ordering}
    (h : tied first next = .ok o) :
    ∃ p, first = .ok p ∧ ((p ≠ .eq ∧ o = p) ∨ (p = .eq ∧ next = .ok o)) := by
  cases first with
  | error e => cases h
  | ok p =>
      refine ⟨p, rfl, ?_⟩
      cases p with
      | eq => exact .inr ⟨rfl, h⟩
      | _ =>
          cases h
          exact .inl ⟨nofun, rfl⟩

theorem ComposesIn.tied {first second whole first' second' whole' : Except Fault Ordering}
    (h : ComposesIn first second whole)
    (hnext : first = .ok .eq → second = .ok .eq → ComposesIn first' second' whole') :
    ComposesIn (tied first first') (tied second second') (tied whole whole') := by
  intro o p q ho hp hq hle hle'
  replace ho := exists_of_tied_eq_ok ho
  replace hp := exists_of_tied_eq_ok hp
  replace hq := exists_of_tied_eq_ok hq
  obtain ⟨o', rfl, ho⟩ := ho
  obtain ⟨p', rfl, hp⟩ := hp
  obtain ⟨q', rfl, hq⟩ := hq
  have hmake := h o' p' q' rfl rfl rfl
  rcases ho with ⟨hne, rfl⟩ | ⟨rfl, ho⟩
  · -- The first comparison is strict, and so is the one of the whole.
    have hwhole : q' = .lt := by
      cases o with
      | lt =>
          refine hmake rfl ?_
          rcases hp with ⟨-, rfl⟩ | ⟨rfl, -⟩
          · exact hle'
          · rfl
      | eq => exact absurd rfl hne
      | gt => cases hle
    subst hwhole
    obtain rfl : q = .lt := by
      rcases hq with ⟨-, rfl⟩ | ⟨⟨⟩, -⟩
      rfl
    cases o with
    | lt => rfl
    | eq => exact absurd rfl hne
    | gt => cases hle
  · rcases hp with ⟨hne, rfl⟩ | ⟨rfl, hp⟩
    · obtain rfl : p = .lt := by
        cases p with
        | lt => rfl
        | eq => exact absurd rfl hne
        | gt => cases hle'
      obtain rfl : q' = .lt := hmake rfl rfl
      obtain rfl : q = .lt := by
        rcases hq with ⟨-, rfl⟩ | ⟨⟨⟩, -⟩
        rfl
      cases o with
      | gt => cases hle
      | _ => rfl
    · obtain rfl : q' = .eq := hmake rfl rfl
      rcases hq with ⟨hne, -⟩ | ⟨-, hq⟩
      · exact absurd rfl hne
      · exact hnext rfl rfl o p q ho hp hq hle hle'

theorem Kind.rank_injective {k l : Kind} (h : k.rank = l.rank) : k = l := by
  cases k <;> cases l <;> first | rfl | cases h

theorem exists_kind?_of_compare_eq_ok {v w : Value} {o : Ordering} (h : compare v w = .ok o) :
    ∃ k l, v.kind? = some k ∧ w.kind? = some l ∧ (k ≠ l → o = Ord.compare k.rank l.rank) := by
  by_cases hkind : v.kind? = w.kind?
  · cases hk : v.kind? with
    | some k => exact ⟨k, k, rfl, hkind ▸ hk, fun hne => absurd rfl hne⟩
    | none =>
        cases v with
        | bare x =>
            cases w with
            | bare y => cases h
            | _ => cases hkind
        | _ => cases hk
  · rw [compare_of_kind?_ne hkind] at h
    split at h
    · rename_i k l hk hl
      refine ⟨k, l, ?_, ?_, fun _ => (Except.ok.inj h).symm⟩
      · rw [kind?, hk]
        rfl
      · rw [kind?, hl]
        rfl
    · cases h
    · cases h

theorem composesIn_of_kind? {a b c : Value}
    (hsame : a.kind? = b.kind? → b.kind? = c.kind? →
      ComposesIn (compare a b) (compare b c) (compare a c)) :
    ComposesIn (compare a b) (compare b c) (compare a c) := by
  by_cases h : a.kind? = b.kind? ∧ b.kind? = c.kind?
  · exact hsame h.1 h.2
  intro o p q ho hp hq hle hle'
  obtain ⟨k, l, hk, hl, hkl⟩ := exists_kind?_of_compare_eq_ok ho
  obtain ⟨l', m, hl', hm, hlm⟩ := exists_kind?_of_compare_eq_ok hp
  obtain ⟨k', m', hk', hm', hkm⟩ := exists_kind?_of_compare_eq_ok hq
  obtain rfl := Option.some.inj (hl.symm.trans hl')
  obtain rfl := Option.some.inj (hk.symm.trans hk')
  obtain rfl := Option.some.inj (hm.symm.trans hm')
  rw [hk, hl, hm, Option.some.injEq, Option.some.injEq] at h
  have hbelow {k l : Kind} (hne : k ≠ l) (hle : (Ord.compare k.rank l.rank).isLE) :
      k.rank < l.rank :=
    Nat.lt_of_le_of_ne (Nat.isLE_compare.mp hle) fun heq => hne (Kind.rank_injective heq)
  have hlt {m n : Nat} (hmn : m < n) : Ord.compare m n = .lt := Nat.compare_eq_lt.mpr hmn
  by_cases hfirst : k = l
  · subst hfirst
    have hsecond : k ≠ m := fun heq => h ⟨rfl, heq⟩
    obtain rfl := hlm hsecond
    obtain rfl := hkm hsecond
    rw [hlt (hbelow hsecond hle')]
    cases o with
    | gt => cases hle
    | _ => rfl
  · obtain rfl := hkl hfirst
    have hkl := hbelow hfirst hle
    have hkm' : k.rank < m.rank := by
      by_cases hsecond : l = m
      · rwa [← hsecond]
      · obtain rfl := hlm hsecond
        exact hkl.trans (hbelow hsecond hle')
    obtain rfl := hkm fun heq => by rw [heq] at hkm'; exact lt_irrefl _ hkm'
    rw [hlt hkl, hlt hkm']
    rfl

theorem composesIn_compareItems {xs ys zs : List Value}
    (h : ∀ x ∈ xs, ∀ y ∈ ys, ∀ z ∈ zs, ComposesIn (compare x y) (compare y z) (compare x z))
    (hxy : xs.length = ys.length) (hyz : ys.length = zs.length) :
    ComposesIn (compareItems xs ys) (compareItems ys zs) (compareItems xs zs) := by
  induction xs generalizing ys zs with
  | nil =>
      obtain rfl := List.eq_nil_of_length_eq_zero hxy.symm
      exact composesIn_ok fun _ _ => rfl
  | cons x xs ih =>
      obtain ⟨y, ys, rfl⟩ := List.exists_cons_of_length_eq_add_one hxy.symm
      obtain ⟨z, zs, rfl⟩ := List.exists_cons_of_length_eq_add_one hyz.symm
      rw [compareItems, compareItems, compareItems]
      refine (h x List.mem_cons_self y List.mem_cons_self z List.mem_cons_self).tied fun _ _ => ?_
      refine ih (fun x hx y hy z hz => ?_) (by simpa using hxy) (by simpa using hyz)
      exact h x (List.mem_cons_of_mem _ hx) y (List.mem_cons_of_mem _ hy) z
        (List.mem_cons_of_mem _ hz)

theorem composesIn_compareEntries {es fs gs : List (String × Value)}
    (h : ∀ e ∈ es, ∀ f ∈ fs, ∀ g ∈ gs,
      ComposesIn (compare e.2 f.2) (compare f.2 g.2) (compare e.2 g.2))
    (hef : es.length = fs.length) (hfg : fs.length = gs.length) :
    ComposesIn (compareEntries es fs) (compareEntries fs gs) (compareEntries es gs) := by
  induction es generalizing fs gs with
  | nil =>
      obtain rfl := List.eq_nil_of_length_eq_zero hef.symm
      exact composesIn_ok fun _ _ => rfl
  | cons e es ih =>
      obtain ⟨f, fs, rfl⟩ := List.exists_cons_of_length_eq_add_one hef.symm
      obtain ⟨g, gs, rfl⟩ := List.exists_cons_of_length_eq_add_one hfg.symm
      rw [compareEntries, compareEntries, compareEntries]
      refine (composesIn_ok (composes_of_transCmp e.1 f.1 g.1)).tied fun _ _ => ?_
      refine (h e List.mem_cons_self f List.mem_cons_self g List.mem_cons_self).tied fun _ _ => ?_
      refine ih (fun e he f hf g hg => ?_) (by simpa using hef) (by simpa using hfg)
      exact h e (List.mem_cons_of_mem _ he) f (List.mem_cons_of_mem _ hf) g
        (List.mem_cons_of_mem _ hg)

theorem composesIn_of_lengths {α : Type} {xs ys zs : List α}
    {first second whole : Except Fault Ordering}
    (h : xs.length = ys.length → ys.length = zs.length → ComposesIn first second whole) :
    ComposesIn (tied (.ok (Ord.compare xs.length ys.length)) first)
      (tied (.ok (Ord.compare ys.length zs.length)) second)
      (tied (.ok (Ord.compare xs.length zs.length)) whole) := by
  refine (composesIn_ok (composes_of_transCmp xs.length ys.length zs.length)).tied ?_
  intro hxy hyz
  exact h (Nat.compare_eq_eq.mp (Except.ok.inj hxy)) (Nat.compare_eq_eq.mp (Except.ok.inj hyz))

theorem compare_number_eq_ok_iff {m n : Number} {o : Ordering} :
    compare (number m) (number n) = .ok o ↔ m.compare? n = some o := by
  rw [compare]
  cases m.compare? n <;> simp

theorem composesIn_compare {P : Number → Prop} (hP : Number.Separated P) {a b c : Value}
    (ha : a.IsOver P) (hb : b.IsOver P) (hc : c.IsOver P) :
    ComposesIn (compare a b) (compare b c) (compare a c) := by
  induction ha generalizing b c with
  | null =>
      refine composesIn_of_kind? fun hab hbc => ?_
      cases hb <;> cases hab
      cases hc <;> cases hbc
      exact composesIn_ok fun _ _ => rfl
  | bool x =>
      refine composesIn_of_kind? fun hab hbc => ?_
      cases hb <;> cases hab
      cases hc <;> cases hbc
      exact composesIn_ok (composes_of_transCmp x _ _)
  | string s =>
      refine composesIn_of_kind? fun hab hbc => ?_
      cases hb <;> cases hab
      cases hc <;> cases hbc
      exact composesIn_ok (composes_of_transCmp s _ _)
  | number hk =>
      refine composesIn_of_kind? fun hab hbc => ?_
      cases hb <;> cases hab
      rename_i hm
      cases hc <;> cases hbc
      rename_i hn
      intro o p q ho hp hq
      exact Number.composes_compare? hP hk hm hn (compare_number_eq_ok_iff.mp ho)
        (compare_number_eq_ok_iff.mp hp) (compare_number_eq_ok_iff.mp hq)
  | array _ ih =>
      refine composesIn_of_kind? fun hab hbc => ?_
      cases hb <;> cases hab
      rename_i hys
      cases hc <;> cases hbc
      rename_i hzs
      rw [compare, compare, compare]
      refine composesIn_of_lengths fun hxy hyz => composesIn_compareItems ?_ hxy hyz
      intro x hx y hy z hz
      exact ih x hx (hys y hy) (hzs z hz)
  | object _ _ ih =>
      refine composesIn_of_kind? fun hab hbc => ?_
      cases hb <;> cases hab
      rename_i hfs
      cases hc <;> cases hbc
      rename_i hgs
      rw [compare, compare, compare]
      refine composesIn_of_lengths fun hef hfg => composesIn_compareEntries ?_ hef hfg
      intro e he f hf g hg
      exact ih e he (hfs f hf) (hgs g hg)

/-! ### The preorder -/

/-- The order is transitive on the documents over some numbers. -/
def IsTransitiveOver (P : Number → Prop) : Prop :=
  ∀ a b c : Value, a.IsOver P → b.IsOver P → c.IsOver P →
    ∀ first second whole, compare a b = .ok first → compare b c = .ok second →
      compare a c = .ok whole → first.isLE → second.isLE → whole.isLE

theorem isTransitiveOver_of_separated {P : Number → Prop} (hP : Number.Separated P) :
    IsTransitiveOver P := by
  intro a b c ha hb hc first second whole hfirst hsecond hwhole hle hnext
  rw [composesIn_compare hP ha hb hc first second whole hfirst hsecond hwhole hle hnext]
  cases first with
  | lt => rfl
  | eq => exact hnext
  | gt => cases hle

/-- The greater of two integers comes before a binary64 number that it falls together with, and
this one before the other integer. -/
theorem separated_of_isTransitiveOver {P : Number → Prop} (h : IsTransitiveOver P) :
    Number.Separated P := by
  have hle : ∀ i j x, P (.int i) → P (.int j) → P (.float x) →
      Number.compare? (.int i) (.float x) = some .eq →
      Number.compare? (.int j) (.float x) = some .eq → i ≤ j := by
    intro i j x hi hj hx hix hjx
    have hxj : Number.compare? (.float x) (.int j) = some .eq := by
      rw [Number.compare?_swap, hjx]
      rfl
    have hij := h (number (.int i)) (number (.float x)) (number (.int j)) (.number hi) (.number hx)
      (.number hj) .eq .eq (Ord.compare i j) (compare_number_eq_ok_iff.mpr hix)
      (compare_number_eq_ok_iff.mpr hxj) rfl rfl rfl
    exact Int.isLE_compare.mp hij
  intro i j x hi hj hx hix hjx
  exact Int.le_antisymm (hle i j x hi hj hx hix hjx) (hle j i x hj hi hx hjx hix)

/-- Swapping two documents swaps the outcome of their comparison, and its failure stays, also
where bare numbers stand in the place of documents, except that the first one of two is named.
The order is transitive on the documents over some numbers exactly when no two integers among
these fall together with one binary64 number among them. -/
theorem compare_isPreorder_iff (P : Number → Prop) :
    (∀ v w : Value, v.IsDocument → w.IsDocument →
        compare w v = (compare v w).map Ordering.swap) ∧
      (∀ v w : Value, Mirrors (compare v w) (compare w v)) ∧
      (IsTransitiveOver P ↔ Number.Separated P) := by
  refine ⟨fun v w hv hw => hv.compare_swap hw, mirrors_compare, ?_, ?_⟩
  · exact separated_of_isTransitiveOver
  · exact isTransitiveOver_of_separated

/-- The integer after the one up to which every integer is a binary64 number. -/
def firstRounded : Number :=
  .int (2 ^ 53 + 1)

def lastExact : Number :=
  .int (2 ^ 53)

def lastExactDouble : Double :=
  ⟨false, 1076 * twoTo 52, by decide⟩

theorem compare_not_transitive :
    compare (number firstRounded) (number (.float lastExactDouble)) = .ok .eq ∧
      compare (number (.float lastExactDouble)) (number lastExact) = .ok .eq ∧
      compare (number firstRounded) (number lastExact) = .ok .gt := by
  decide +kernel

end Reshape.Value
