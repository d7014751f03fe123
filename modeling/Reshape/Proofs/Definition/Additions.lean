import Reshape.Proofs.Definition.Reading

namespace Reshape.Definition

/-- A call that adds one parameter or several. -/
inductive Addition where
  | one (p : Parameter)
  | several (ps : List Parameter)

namespace Addition

def parameters : Addition → List Parameter
  | one p => [p]
  | several ps => ps

def apply (d : Definition) : Addition → Definition
  | one p => d.addParameter p
  | several ps => d.addParameters ps

end Addition

variable {d : Definition} {added : List Parameter} {p q : Parameter} {i : Nat}

/-! ### The latest additions -/

/-- The parameter was added at a position, and after it none with its name. -/
structure IsLatestAt (added : List Parameter) (i : Nat) (p : Parameter) : Prop where
  here : added[i]? = some p
  last : ∀ j q, i < j → added[j]? = some q → q.name ≠ p.name

/-- Both parameters are the latest ones with their names, and the first was added earlier. -/
def IsEarlier (added : List Parameter) (p q : Parameter) : Prop :=
  ∃ i j, i < j ∧ IsLatestAt added i p ∧ IsLatestAt added j q

/-- The list holds, of the parameters that were added one after the other, the latest one with
each name. They stand by their ranks, and within a rank in the order in which they were added. -/
structure HoldsLatest (added parameters : List Parameter) : Prop where
  distinct : (parameters.map Parameter.name).Nodup
  latest : ∀ p, p ∈ parameters ↔ ∃ i, IsLatestAt added i p
  ranked : parameters.Pairwise fun p q => p.rank ≤ q.rank
  ordered : parameters.Pairwise fun p q => p.rank = q.rank → IsEarlier added p q

theorem getElem?_concat_eq_some_iff {α : Type} {xs : List α} {x y : α} :
    (xs ++ [x])[i]? = some y ↔ xs[i]? = some y ∨ i = xs.length ∧ y = x := by
  grind

theorem isLatestAt_concat_iff :
    IsLatestAt (added ++ [p]) i q ↔
      IsLatestAt added i q ∧ q.name ≠ p.name ∨ i = added.length ∧ q = p := by
  constructor
  · rintro ⟨here, last⟩
    rcases getElem?_concat_eq_some_iff.mp here with hold | hnew
    · have hlt : i < added.length := (List.getElem?_eq_some_iff.mp hold).1
      refine .inl ⟨⟨hold, fun j r hij hr => ?_⟩, ?_⟩
      · exact last j r hij (getElem?_concat_eq_some_iff.mpr (.inl hr))
      · exact (last added.length p hlt (getElem?_concat_eq_some_iff.mpr (.inr ⟨rfl, rfl⟩))).symm
    · exact .inr hnew
  · rintro (⟨⟨here, last⟩, hname⟩ | ⟨rfl, rfl⟩)
    · refine ⟨getElem?_concat_eq_some_iff.mpr (.inl here), fun j r hij hr => ?_⟩
      rcases getElem?_concat_eq_some_iff.mp hr with hold | ⟨-, rfl⟩
      · exact last j r hij hold
      · exact hname.symm
    · refine ⟨getElem?_concat_eq_some_iff.mpr (.inr ⟨rfl, rfl⟩), fun j r hij hr => ?_⟩
      have hlt := (List.getElem?_eq_some_iff.mp hr).1
      rw [List.length_append, List.length_singleton] at hlt
      omega

theorem IsLatestAt.lt_length (h : IsLatestAt added i p) : i < added.length :=
  (List.getElem?_eq_some_iff.mp h.here).1

theorem IsLatestAt.concat (h : IsLatestAt added i q) (hname : q.name ≠ p.name) :
    IsLatestAt (added ++ [p]) i q :=
  isLatestAt_concat_iff.mpr (.inl ⟨h, hname⟩)

theorem isLatestAt_length (added : List Parameter) (p : Parameter) :
    IsLatestAt (added ++ [p]) added.length p :=
  isLatestAt_concat_iff.mpr (.inr ⟨rfl, rfl⟩)

theorem isLatestAt_of_nodup (h : (added.map Parameter.name).Nodup) (hp : added[i]? = some p) :
    IsLatestAt added i p := by
  have hnames : added.Pairwise fun p q => p.name ≠ q.name := List.pairwise_map.mp h
  refine ⟨hp, fun j q hij hq => ?_⟩
  obtain ⟨hi, rfl⟩ := List.getElem?_eq_some_iff.mp hp
  obtain ⟨hj, rfl⟩ := List.getElem?_eq_some_iff.mp hq
  exact (List.pairwise_iff_getElem.mp hnames i j hi hj hij).symm

/-! ### One addition -/

theorem holdsLatest_self (hnames : (added.map Parameter.name).Nodup)
    (hranks : added.Pairwise fun p q => p.rank ≤ q.rank) : HoldsLatest added added where
  distinct := hnames
  latest p := by
    rw [List.mem_iff_getElem?]
    exact ⟨fun ⟨i, hi⟩ => ⟨i, isLatestAt_of_nodup hnames hi⟩, fun ⟨i, hi⟩ => ⟨i, hi.here⟩⟩
  ranked := hranks
  ordered := by
    refine List.pairwise_iff_getElem.mpr fun i j hi hj hij _ => ⟨i, j, hij, ?_, ?_⟩
    · exact isLatestAt_of_nodup hnames (List.getElem?_eq_getElem hi)
    · exact isLatestAt_of_nodup hnames (List.getElem?_eq_getElem hj)

theorem parameters_addParameter (d : Definition) (p : Parameter) :
    (d.addParameter p).parameters = Sorting.arrange (fun q r => q.rank ≤ r.rank)
      (d.parameters.filter (fun q => q.name != p.name) ++ [p]) :=
  rfl

namespace HoldsLatest

theorem addParameter (h : HoldsLatest added d.parameters) (p : Parameter) :
    HoldsLatest (added ++ [p]) (d.addParameter p).parameters where
  distinct := nodup_names_addParameter h.distinct p
  latest q := by
    rw [parameters_addParameter, (Sorting.arrange_perm _ _).mem_iff]
    simp only [List.mem_append, List.mem_singleton, List.mem_filter, h.latest,
      isLatestAt_concat_iff, bne_iff_ne, exists_or, exists_and_right, exists_eq, true_and]
  ranked := by
    rw [parameters_addParameter]
    refine (Sorting.pairwise_arrange (fun q r => ?_) (fun q r s => ?_) _).imp of_decide_eq_true
    · simpa using Nat.le_total q.rank r.rank
    · simpa using Nat.le_trans
  ordered := by
    have hothers : (d.parameters.filter fun q => q.name != p.name).Pairwise fun q r =>
        q.rank = r.rank → IsEarlier (added ++ [p]) q r := by
      refine (h.ordered.filter _).imp_of_mem fun {q r} hq hr hqr hrank => ?_
      obtain ⟨i, j, hij, hi, hj⟩ := hqr hrank
      have hname := bne_iff_ne.mp (List.mem_filter.mp hq).2
      have hname' := bne_iff_ne.mp (List.mem_filter.mp hr).2
      exact ⟨i, j, hij, hi.concat hname, hj.concat hname'⟩
    have hnew : ∀ q ∈ d.parameters.filter fun q => q.name != p.name, ∀ r ∈ [p],
        q.rank = r.rank → IsEarlier (added ++ [p]) q r := by
      intro q hq r hr _
      rw [List.mem_singleton.mp hr]
      obtain ⟨hmem, hname⟩ := List.mem_filter.mp hq
      obtain ⟨i, hi⟩ := (h.latest q).mp hmem
      exact ⟨i, added.length, hi.lt_length, hi.concat (bne_iff_ne.mp hname),
        isLatestAt_length added p⟩
    -- The sorting is stable, so that the order of the list before it is kept within a rank.
    have hall := List.pairwise_append.mpr ⟨hothers, List.pairwise_singleton _ p, hnew⟩
    rw [parameters_addParameter]
    refine (Sorting.pairwise_arrange_of_pairwise hall).imp fun hqr hrank => ?_
    exact hqr (decide_eq_true (Nat.le_of_eq hrank.symm)) hrank

/-! ### All additions -/

theorem addParameters (h : HoldsLatest added d.parameters) (ps : List Parameter) :
    HoldsLatest (added ++ ps) (d.addParameters ps).parameters := by
  induction ps generalizing d added with
  | nil => rwa [List.append_nil]
  | cons p ps ih =>
      rw [List.append_cons]
      exact ih (h.addParameter p)

theorem apply (h : HoldsLatest added d.parameters) (a : Addition) :
    HoldsLatest (added ++ a.parameters) (a.apply d).parameters := by
  cases a with
  | one p => exact h.addParameter p
  | several ps => exact h.addParameters ps

theorem foldl_apply (h : HoldsLatest added d.parameters) (additions : List Addition) :
    HoldsLatest (added ++ additions.flatMap Addition.parameters)
      (additions.foldl Addition.apply d).parameters := by
  induction additions generalizing d added with
  | nil => rwa [List.flatMap_nil, List.append_nil]
  | cons a additions ih =>
      rw [List.flatMap_cons, ← List.append_assoc]
      exact ih (h.apply a)

end HoldsLatest

/-- After any additions the parameters are the latest ones with their names, by their ranks, and
within a rank as they were added. What the definition has at first, if anything, counts as added
before. -/
theorem holdsLatest_of_additions (hnames : (d.parameters.map Parameter.name).Nodup)
    (hranks : d.parameters.Pairwise fun p q => p.rank ≤ q.rank) (additions : List Addition) :
    HoldsLatest (d.parameters ++ additions.flatMap Addition.parameters)
      (additions.foldl Addition.apply d).parameters :=
  (holdsLatest_self hnames hranks).foldl_apply additions

def twoRequired : Definition :=
  ⟨"f", [], none, [.ofName "x", .ofName "y"]⟩

/-- The parameter `x` gets a fallback, and `y` is added once more as it was. -/
def renewals : List Addition :=
  [.one ((Parameter.ofName "x").withFallback .null),
    .several [(Parameter.ofName "z").withRequired false, .ofName "w"], .one (.ofName "y")]

theorem holdsLatest_of_renewals :
    (twoRequired.parameters.map Parameter.name).Nodup ∧
      (twoRequired.parameters.Pairwise fun p q => p.rank ≤ q.rank) ∧
      HoldsLatest (twoRequired.parameters ++ renewals.flatMap Addition.parameters)
        (renewals.foldl Addition.apply twoRequired).parameters ∧
      (renewals.foldl Addition.apply twoRequired).parameters.map Parameter.name =
        ["w", "y", "z", "x"] := by
  have hnames : (twoRequired.parameters.map Parameter.name).Nodup := by decide
  have hranks : twoRequired.parameters.Pairwise fun p q => p.rank ≤ q.rank := by decide
  exact ⟨hnames, hranks, holdsLatest_of_additions hnames hranks renewals, by decide⟩

end Reshape.Definition
