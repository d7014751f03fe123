import Reshape.Proofs.Edit.Children
import Reshape.Query.Basic

/-!
Edits at many nodes are one rewriting of the document from the bottom up. Main statement:
`all_eq_bottomUp`. The invariant: before the next key the document is rewritten at all later
keys, so that the parts at the keys still to come are where they were.
-/

namespace Reshape

namespace Edit

open Key (Segment)
open Value (mapItems mapEntries mapChildren mapChildren_congr mapChildren_eq_self)

/-- The marks inside a child. -/
def inside (marked : Key → Bool) (s : Segment) : Key → Bool :=
  fun key => marked (s :: key)

/-- The marks inside the part at the end of a way. -/
def insideOf (marked : Key → Bool) (key : Key) : Key → Bool :=
  fun more => marked (key ++ more)

/-- A part after its own replacement, if it is marked. -/
def replaced (f : Value → Option Value) (isMarked : Bool) (v : Value) : Option Value :=
  if isMarked then f v else some v

mutual

/-- Replaces the marked parts of a document. A part is replaced after the parts inside it,
and is left out where its replacement is nothing; all others are kept where they are. -/
def bottomUp (f : Value → Option Value) (marked : Key → Bool) : Value → Value
  | .array items => .array (bottomUpItems f marked 0 items)
  | .object entries => .object (bottomUpEntries f marked entries)
  | v => v

def bottomUpItems (f : Value → Option Value) (marked : Key → Bool) (index : Nat) :
    List Value → List Value
  | [] => []
  | v :: vs =>
    (replaced f (marked [.index index]) (bottomUp f (inside marked (.index index)) v)).toList ++
      bottomUpItems f marked (index + 1) vs

def bottomUpEntries (f : Value → Option Value) (marked : Key → Bool) :
    List (String × Value) → List (String × Value)
  | [] => []
  | (k, v) :: rest =>
    ((replaced f (marked [.ident k]) (bottomUp f (inside marked (.ident k)) v)).map
        fun w => (k, w)).toList ++
      bottomUpEntries f marked rest

end

def rewritten (f : Value → Option Value) (marked : Key → Bool) (s : Segment) (v : Value) :
    Option Value :=
  replaced f (marked [s]) (bottomUp f (inside marked s) v)

section BottomUp

variable (f : Value → Option Value)

theorem bottomUpItems_eq (marked : Key → Bool) (index : Nat) (items : List Value) :
    bottomUpItems f marked index items = mapItems (rewritten f marked) index items := by
  induction items generalizing index with
  | nil => rfl
  | cons v vs ih =>
      rw [bottomUpItems, mapItems, ih]
      rfl

theorem bottomUpEntries_eq (marked : Key → Bool) (entries : Entries Value) :
    bottomUpEntries f marked entries = mapEntries (rewritten f marked) entries := by
  induction entries with
  | nil => rfl
  | cons e rest ih =>
      rw [bottomUpEntries, mapEntries, ih]
      rfl

theorem bottomUp_eq_mapChildren (marked : Key → Bool) (v : Value) :
    bottomUp f marked v = v.mapChildren (rewritten f marked) := by
  cases v with
  | null | bool | number | string | bare => rfl
  | array items => rw [bottomUp, bottomUpItems_eq, mapChildren]
  | object entries => rw [bottomUp, bottomUpEntries_eq, mapChildren]

/-- Only the marks inside a document count. -/
theorem bottomUp_congr {v : Value} (hv : v.IsDocument) {marked marked' : Key → Bool}
    (h : ∀ key ≠ [], marked key = marked' key) : bottomUp f marked v = bottomUp f marked' v := by
  induction hv using Value.IsDocument.induction_child generalizing marked marked' with
  | parent v hv ih =>
      rw [bottomUp_eq_mapChildren, bottomUp_eq_mapChildren]
      refine mapChildren_congr hv fun s u hu => ?_
      have hinside : bottomUp f (inside marked s) u = bottomUp f (inside marked' s) u :=
        ih s u hu fun key _ => h (s :: key) (List.cons_ne_nil _ _)
      rw [rewritten, rewritten, h [s] (List.cons_ne_nil _ _), hinside]

theorem bottomUp_unmarked {v : Value} (hv : v.IsDocument) :
    bottomUp f (fun _ => false) v = v := by
  induction hv using Value.IsDocument.induction_child with
  | parent v hv ih =>
      rw [bottomUp_eq_mapChildren]
      refine mapChildren_eq_self hv fun s u hu => ?_
      exact congrArg some (ih s u hu)

theorem rewritten_of_unmarked {marked : Key → Bool} {s : Segment} (hs : marked [s] = false)
    (u : Value) : rewritten f marked s u = some (bottomUp f (inside marked s) u) := by
  rw [rewritten, hs]
  rfl

end BottomUp

section Step

variable {m : Type → Type} [Monad m] [LawfulMonad m] (observe : Value → m Unit)
  (f : Value → Option Value)

/-- A replacement that is seen each time it is asked for. -/
def observed (v : Value) : m (Option Value) := do
  observe v
  return f v

/-- Marks one more key. -/
def marking (key : Key) (marked : Key → Bool) : Key → Bool :=
  fun other => other == key || marked other

theorem unmarked_of_ne_gt {marked : Key → Bool} {s t : Segment} {rest : Key}
    (hmarked : ∀ other, marked other = true → Key.compare (s :: rest) other = .lt)
    (ht : t.compare s ≠ .gt) : marked [t] = false := by
  by_contra htrue
  have hlt := hmarked [t] (by simpa using htrue)
  by_cases hst : s = t
  · rw [hst, Key.compare_cons] at hlt
    cases rest <;> cases hlt
  · rw [Key.compare_cons_of_ne hst] at hlt
    exact ht (Std.OrientedCmp.gt_iff_lt.mpr hlt)

theorem rewritten_marking_single (marked : Key → Bool) (s : Segment) {u : Value}
    (hu : u.IsDocument) :
    rewritten f (marking [s] marked) s u = f (bottomUp f (inside marked s) u) := by
  have hself : marking [s] marked [s] = true := by simp [marking]
  have hinside : bottomUp f (inside (marking [s] marked) s) u =
      bottomUp f (inside marked s) u := by
    refine bottomUp_congr f hu fun key hne => ?_
    simp [inside, marking, hne]
  rw [rewritten, replaced, if_pos hself, hinside]

theorem rewritten_marking_cons {marked : Key → Bool} {s t : Segment} (hs : marked [s] = false)
    (rest : Key) (u : Value) :
    rewritten f (marking (s :: t :: rest) marked) s u =
      some (bottomUp f (marking (t :: rest) (inside marked s)) u) := by
  have hfirst : marking (s :: t :: rest) marked [s] = false := by
    simp [marking, hs]
  have hinside : inside (marking (s :: t :: rest) marked) s =
      marking (t :: rest) (inside marked s) := by
    funext key
    simp [inside, marking]
  rw [rewritten_of_unmarked f hfirst, hinside]

/-- A mark in one child changes nothing in the others. -/
theorem mapChildren_answering_marking {v u : Value} (hv : v.IsDocument) {s : Segment}
    (hu : v.child? s = some u) (rest : Key) (marked : Key → Bool) :
    v.mapChildren (answering (rewritten f marked) s
        (rewritten f (marking (s :: rest) marked) s u)) =
      bottomUp f (marking (s :: rest) marked) v := by
  rw [bottomUp_eq_mapChildren]
  refine mapChildren_congr hv fun t u' hu' => ?_
  by_cases hts : t = s
  · subst hts
    cases hu.symm.trans hu'
    rw [answering_self]
  · have hother : inside (marking (s :: rest) marked) t = inside marked t := by
      funext key
      simp [inside, marking, hts]
    have hfirst : marking (s :: rest) marked [t] = marked [t] := by
      simp [marking, hts]
    rw [answering_of_ne hts, rewritten, rewritten, hother, hfirst]

/-- The edit at a key that all marked keys come after marks this key too. What is replaced
is the part that stood there at first, rewritten at the marked keys inside it. -/
theorem one_bottomUp {v : Value} (hv : v.IsDocument) {key : Key} (hkey : key ≠ []) {w : Value}
    (hw : v.at? key = some w) {marked : Key → Bool}
    (hmarked : ∀ other, marked other = true → key.compare other = .lt) :
    one (observed observe f) key (bottomUp f marked v) = do
      observe (bottomUp f (insideOf marked key) w)
      return some (bottomUp f (marking key marked) v) := by
  induction key generalizing v marked with
  | nil => exact absurd rfl hkey
  | cons s rest ih =>
      obtain ⟨u, hu, hw⟩ := Option.bind_eq_some_iff.mp hw
      have hself : s.compare s = .eq := Std.ReflCmp.compare_self
      have hs : marked [s] = false := unmarked_of_ne_gt hmarked (by rw [hself]; decide)
      -- The child's answer after the step is what the greater marks make of it.
      have hanswer : one (observed observe f) rest (bottomUp f (inside marked s) u) = do
          observe (bottomUp f (insideOf marked (s :: rest)) w)
          return rewritten f (marking (s :: rest) marked) s u := by
        cases rest with
        | nil =>
            obtain rfl : u = w := Option.some.inj hw
            rw [one, observed, rewritten_marking_single f marked s (hv.child? hu)]
            rfl
        | cons t rest =>
            rw [ih (hv.child? hu) (List.cons_ne_nil _ _) hw, rewritten_marking_cons f hs]
            · rfl
            · intro other hother
              have hlt := hmarked (s :: other) hother
              rwa [Key.compare_cons] at hlt
      rw [bottomUp_eq_mapChildren, one_mapChildren _ hv hu (rewritten_of_unmarked f hs u), hanswer]
      · rw [map_eq_pure_bind, bind_assoc]
        simp only [pure_bind, mapChildren_answering_marking f hv hu]
      · intro t u' hts
        rw [rewritten_of_unmarked f (unmarked_of_ne_gt hmarked (by rw [hts]; decide))]
        rfl

end Step

section Order

theorem nodup_eraseDups {α : Type} [BEq α] [LawfulBEq α] (as : List α) : as.eraseDups.Nodup := by
  induction hlength : as.length using Nat.strongRecOn generalizing as with
  | _ length ih =>
      cases as with
      | nil => exact List.nodup_nil
      | cons b as =>
          have hshort : (as.filter fun c => !c == b).length < length := by
            have hle := List.length_filter_le (fun c => !c == b) as
            rw [← hlength, List.length_cons]
            omega
          rw [List.eraseDups_cons, List.nodup_cons]
          refine ⟨?_, ih _ hshort _ rfl⟩
          simp

theorem mem_pending_iff {locations : List Key} {key : Key} :
    key ∈ pending locations ↔ key ∈ locations :=
  ((Sorting.arrange_perm _ _).mem_iff).trans List.mem_eraseDups

theorem nodup_pending (locations : List Key) : (pending locations).Nodup :=
  (Sorting.arrange_perm _ _).nodup_iff.mpr (nodup_eraseDups locations)

theorem pairwise_pending (locations : List Key) :
    (pending locations).Pairwise fun key other => other.compare key = .lt := by
  have htotal : ∀ key other : Key, (key.compare other != .lt) = true ∨
      (other.compare key != .lt) = true := by
    intro key other
    rw [Key.compare_swap other]
    cases key.compare other <;> simp
  have htrans : ∀ key other next : Key, (key.compare other != .lt) = true →
      (other.compare next != .lt) = true → (key.compare next != .lt) = true := by
    intro key other next hfirst hnext
    have hge : (key.compare next).isGE := Std.TransCmp.isGE_trans (b := other)
      (by revert hfirst; cases key.compare other <;> simp)
      (by revert hnext; cases other.compare next <;> simp)
    revert hge
    cases key.compare next <;> simp
  have hsorted : (pending locations).Pairwise fun key other =>
      (key.compare other != .lt) = true :=
    Sorting.pairwise_arrange htotal htrans _
  refine hsorted.imp₂ (fun key other hle hne => ?_) (nodup_pending locations)
  rw [Key.compare_swap]
  cases hcompare : key.compare other with
  | lt => simp [hcompare] at hle
  | eq => exact absurd (Std.LawfulEqCmp.eq_of_compare hcompare) hne
  | gt => rfl

theorem pending_eq_of_mem_iff {locations others : List Key}
    (h : ∀ key, key ∈ others ↔ key ∈ locations) : pending others = pending locations := by
  have hperm : (pending others).Perm (pending locations) := by
    rw [List.perm_ext_iff_of_nodup (nodup_pending others) (nodup_pending locations)]
    intro key
    rw [mem_pending_iff, mem_pending_iff, h]
  refine hperm.eq_of_pairwise (fun key other _ _ hlt hgt => ?_) (pairwise_pending others)
    (pairwise_pending locations)
  rw [Key.compare_swap, hlt] at hgt
  cases hgt

end Order

section Run

variable {m : Type → Type} [Monad m] [LawfulMonad m] (observe : Value → m Unit)
  (f : Value → Option Value)

/-- The part of a document at a marked key, after the marked parts inside it have been
replaced. -/
def partAt (f : Value → Option Value) (marked : Key → Bool) (v : Value) (key : Key) : Value :=
  bottomUp f (insideOf marked key) ((v.at? key).getD .null)

/-- The run from where some keys are marked already and the others are still to come, all
in descending order. -/
theorem inOrder_bottomUp {v : Value} (hv : v.IsDocument) {keys : List Key} (done : List Key)
    (hplaces : ∀ key ∈ keys, key ≠ [] ∧ (v.at? key).isSome)
    (hsorted : (done ++ keys).Pairwise fun key other => other.compare key = .lt) :
    inOrder (observed observe f) keys (bottomUp f done.contains v) = do
      forM keys fun key => observe (partAt f (done ++ keys).contains v key)
      return bottomUp f (done ++ keys).contains v := by
  induction keys generalizing done with
  | nil => simp [inOrder]
  | cons key keys ih =>
      obtain ⟨⟨hne, hsome⟩, hrest⟩ := List.forall_mem_cons.mp hplaces
      obtain ⟨w, hw⟩ := Option.isSome_iff_exists.mp hsome
      obtain ⟨-, hkeys, hbetween⟩ := List.pairwise_append.mp hsorted
      have hdone : ∀ other, done.contains other = true → key.compare other = .lt := by
        intro other hother
        exact hbetween other (List.contains_iff_mem.mp hother) key List.mem_cons_self
      have hmoved : done ++ key :: keys = done ++ [key] ++ keys := by simp
      have hmarking : marking key done.contains =
          (done ++ [key]).contains := by
        funext other
        rw [marking, Bool.eq_iff_iff]
        simp [or_comm]
      -- All keys inside this one are marked before it.
      have hinside : bottomUp f (insideOf done.contains key) w =
          partAt f (done ++ key :: keys).contains v key := by
        rw [partAt, hw, Option.getD_some]
        refine bottomUp_congr f (hv.at? hw) fun more hmore => ?_
        have hafter : key ++ more ∉ key :: keys := by
          intro hmem
          have hlt := Key.compare_append key hmore
          rcases List.mem_cons.mp hmem with heq | hmem
          · rw [heq, Key.compare_self] at hlt
            cases hlt
          · have hgt := (List.pairwise_cons.mp hkeys).1 _ hmem
            rw [Key.compare_swap, hlt] at hgt
            cases hgt
        rw [insideOf, insideOf, Bool.eq_iff_iff, List.contains_iff_mem, List.contains_iff_mem,
          List.mem_append, or_iff_left hafter]
      rw [inOrder, one_bottomUp observe f hv hne hw hdone, hmarking, hinside]
      simp only [bind_assoc, pure_bind, Option.getD_some]
      rw [ih (done ++ [key]) hrest (hmoved ▸ hsorted), ← hmoved, List.forM_cons, bind_assoc]

end Run

section All

variable {m : Type → Type} [Monad m] [LawfulMonad m] (observe : Value → m Unit)
  (f : Value → Option Value)

theorem all_eq_run {v : Value} (hv : v.IsDocument) {locations : List Key}
    (hplaces : ∀ key ∈ locations, key ≠ [] ∧ (v.at? key).isSome) :
    all (observed observe f) locations v = do
      forM (pending locations) fun key =>
        observe (partAt f locations.contains v key)
      return bottomUp f locations.contains v := by
  have hroot : ¬ locations.contains [] = true := by
    rw [List.contains_iff_mem]
    intro hmem
    exact (hplaces [] hmem).1 rfl
  have hmarked : (pending locations).contains = locations.contains := by
    funext key
    rw [Bool.eq_iff_iff, List.contains_iff_mem, List.contains_iff_mem, mem_pending_iff]
  have hrun := inOrder_bottomUp observe f hv []
    (fun key hkey => hplaces key (mem_pending_iff.mp hkey)) (pairwise_pending locations)
  have hnone : ([] : List Key).contains = fun _ => false := rfl
  rw [List.nil_append, hnone, bottomUp_unmarked f hv, hmarked] at hrun
  rw [all, if_neg hroot, hrun]

/-- Edits at nodes of a document, other than its root, rewrite it from the bottom up. Each
part is replaced once, after all marked parts inside it have been, and neither the order nor
the repetition of the nodes matters. -/
theorem all_eq_bottomUp {v : Value} (hv : v.IsDocument) {locations : List Key}
    (hplaces : ∀ key ∈ locations, key ≠ [] ∧ (v.at? key).isSome) :
    ∃ order : List Key, order.Nodup ∧ (∀ key, key ∈ order ↔ key ∈ locations) ∧
      (order.Pairwise fun earlier later => ¬ earlier <+: later) ∧
      ∀ others : List Key, (∀ key, key ∈ others ↔ key ∈ locations) →
        all (observed observe f) others v = do
          forM order fun key => observe (partAt f locations.contains v key)
          return bottomUp f locations.contains v := by
  refine ⟨pending locations, nodup_pending locations, fun key => mem_pending_iff, ?_, ?_⟩
  · refine (pairwise_pending locations).imp fun {key other} hlt => ?_
    rintro ⟨more, rfl⟩
    by_cases hmore : more = []
    · rw [hmore, List.append_nil, Key.compare_self] at hlt
      cases hlt
    · rw [Key.compare_swap, Key.compare_append key hmore] at hlt
      cases hlt
  · intro others hothers
    have hmarked : others.contains = locations.contains := by
      funext key
      rw [Bool.eq_iff_iff, List.contains_iff_mem, List.contains_iff_mem, hothers]
    rw [all_eq_run observe f hv fun key hkey => hplaces key ((hothers key).mp hkey),
      pending_eq_of_mem_iff hothers, hmarked]

/-- Takes out every one, and counts the elements of arrays. -/
def countOthers : Value → Option Value
  | .number (.int 1) => none
  | .array items => some (.number (.int items.length))
  | v => some v

/-- An array in an array, with ones in both. -/
def nestedDocument : Value :=
  .object [("a", .array [.number (.int 1), .array [.number (.int 1), .number (.int 2)], .null]),
    ("b", .object [("c", .number (.int 1))])]

/-- Places of which some are inside others, and one is given twice. -/
def nestedPlaces : List Key :=
  [[.ident "a", .index 0], [.ident "a"], [.ident "b", .ident "c"],
    [.ident "a", .index 1, .index 0], [.ident "a", .index 1], [.ident "a", .index 0]]

theorem all_eq_bottomUp_nested :
    all (m := Id) (observed (fun _ => pure ()) countOthers) nestedPlaces nestedDocument =
      .object [("a", .number (.int 2)), ("b", .object [])] := by
  have hv : nestedDocument.IsDocument := by
    have hone := Value.IsDocument.number (.int 1)
    have htwo := Value.IsDocument.number (.int 2)
    have hinner : (Value.array [.number (.int 1), .number (.int 2)]).IsDocument :=
      .array _ (by simpa using ⟨hone, htwo⟩)
    have harray : (Value.array [.number (.int 1), .array [.number (.int 1), .number (.int 2)],
        .null]).IsDocument :=
      .array _ (by simpa using ⟨hone, hinner, .null⟩)
    have hobject : (Value.object [("c", .number (.int 1))]).IsDocument :=
      .object _ (by decide) (by simpa using hone)
    exact .object _ (by decide) (by simpa using ⟨harray, hobject⟩)
  have hplaces : ∀ key ∈ nestedPlaces, key ≠ [] ∧ (nestedDocument.at? key).isSome := by decide
  obtain ⟨order, -, -, -, hall⟩ :=
    all_eq_bottomUp (m := Id) (fun _ => pure ()) countOthers hv hplaces
  rw [hall _ fun _ => Iff.rfl]
  rfl

end All

end Edit

theorem Query.edit_eq_bottomUp {m : Type → Type} [Monad m] [LawfulMonad m]
    [MonadExceptOf Fault m] (observe : Value → m Unit) (f : Value → Option Value) {query : Query}
    {v : Value} (hv : v.IsDocument) {locations : List Key}
    (hlocations : query.locations v = .ok locations)
    (hplaces : ∀ key ∈ locations, key ≠ [] ∧ (v.at? key).isSome) :
    query.edit (Edit.observed observe f) v = do
      forM (Edit.pending locations) fun key =>
        observe (Edit.partAt f locations.contains v key)
      return Edit.bottomUp f locations.contains v := by
  rw [edit, hlocations]
  exact Edit.all_eq_run observe f hv hplaces

end Reshape
