import Mathlib
import Reshape.Proofs.Edit.BottomUp
import Reshape.Query.Engine

namespace Reshape.Edit

/-- The edit replaces each of its nodes once, from the inside to the outside, so that the root is
replaced last, after everything inside it. -/
def ReplacesUpToRoot (f : Value → Option Value) (locations : List Key) (v : Value) : Prop :=
  ∃ order : List Key, order.Nodup ∧ (∀ key, key ∈ order ↔ key ∈ locations) ∧
    (order.Pairwise fun earlier later => ¬ earlier <+: later) ∧
    ∀ (m : Type → Type) [Monad m] [LawfulMonad m] (observe : Value → m Unit),
      all (observed observe f) locations v = do
        forM order fun key => observe (partAt f locations.contains v key)
        return (f (bottomUp f locations.contains v)).getD .null

section Root

variable {m : Type → Type} [Monad m] [LawfulMonad m] (observe : Value → m Unit)
  (f : Value → Option Value) {locations : List Key} {v : Value}

theorem all_of_root_mem (hroot : [] ∈ locations) (v : Value) :
    all (observed observe f) locations v = do
      observe v
      return (f v).getD .null := by
  rw [all, if_pos (List.contains_iff_mem.mpr hroot)]
  simp [inOrder, one, observed]

/-- A visit that counts. -/
def countVisit : Value → StateM Nat Unit :=
  fun _ => modify (· + 1)

theorem run_forM_countVisit {α : Type} (part : α → Value) (xs : List α) (n : Nat) :
    StateT.run (m := Id) (forM xs fun x => countVisit (part x)) n = ((), n + xs.length) := by
  induction xs generalizing n with
  | nil => rfl
  | cons x xs ih =>
      rw [List.forM_cons, StateT.run_bind]
      calc
        _ = StateT.run (m := Id) (forM xs fun x => countVisit (part x)) (n + 1) := rfl
        _ = ((), n + (x :: xs).length) := by
          rw [ih, List.length_cons, Nat.add_assoc, Nat.add_comm 1]

theorem length_eq_one_of_visits {order : List Key} (part : Key → Value)
    (hroot : [] ∈ locations)
    (hvisits : all (observed countVisit f) locations v = do
      forM order fun key => countVisit (part key)
      return (f (bottomUp f locations.contains v)).getD .null) :
    order.length = 1 := by
  have hrun := congrArg (fun run : StateM Nat Value => (run.run 0).2) hvisits
  rw [all_of_root_mem countVisit f hroot] at hrun
  simp only [StateT.run_bind, run_forM_countVisit] at hrun
  have hone : 1 = 0 + order.length := hrun
  omega

theorem partAt_root {marked : Key → Bool} (hv : v.IsDocument)
    (hmarked : ∀ key, marked key = true → key = []) : partAt f marked v [] = v := by
  have hnone : ∀ key ≠ [], marked key = false :=
    fun key hne => Bool.eq_false_iff.mpr fun htrue => hne (hmarked key htrue)
  calc partAt f marked v []
    _ = bottomUp f (fun _ => false) v := bottomUp_congr f hv hnone
    _ = v := bottomUp_unmarked f hv

theorem eq_nil_of_replacesUpToRoot (hroot : [] ∈ locations)
    (h : ReplacesUpToRoot f locations v) : ∀ key ∈ locations, key = [] := by
  rintro key hkey
  obtain ⟨order, -, hmem, -, hruns⟩ := h
  have hlength := length_eq_one_of_visits f _ hroot (hruns (StateM Nat) countVisit)
  obtain ⟨only, rfl⟩ := List.length_eq_one_iff.mp hlength
  have hfirst : [] = only := List.mem_singleton.mp ((hmem []).mpr hroot)
  have hother : key = only := List.mem_singleton.mp ((hmem key).mpr hkey)
  rw [hother, ← hfirst]

/-- With the root among its nodes an edit replaces the root alone, and asks for no other
replacement. So it replaces everything up to the root only if the root is its only node. -/
theorem all_root_iff (hv : v.IsDocument) (hroot : [] ∈ locations) :
    (all (observed observe f) locations v = do
      observe v
      return (f v).getD .null) ∧
    (ReplacesUpToRoot f locations v ↔ ∀ key ∈ locations, key = []) := by
  refine ⟨all_of_root_mem observe f hroot v, ?_, ?_⟩
  · exact eq_nil_of_replacesUpToRoot f hroot
  · intro hall
    refine ⟨[[]], List.nodup_singleton _, fun key => ?_, List.pairwise_singleton _ _, ?_⟩
    · constructor
      · intro hkey
        rwa [List.mem_singleton.mp hkey]
      · intro hkey
        exact List.mem_singleton.mpr (hall key hkey)
    · intro m _ _ observe
      have hpart : partAt f locations.contains v [] = v :=
        partAt_root f hv fun key hkey => hall key (List.contains_iff_mem.mp hkey)
      have hwhole : bottomUp f locations.contains v = v := hpart
      rw [all_of_root_mem observe f hroot, hwhole]
      simp [hpart]

end Root

/-- A document around what it replaces. -/
def wrapped (v : Value) : Option Value :=
  some (.object [("was", v)])

/-- One entry, which is to be replaced along with the root. -/
def oneEntry : Value :=
  .object [("a", .null)]

theorem isDocument_oneEntry : oneEntry.IsDocument :=
  .object _ (by decide) (List.forall_mem_singleton.mpr .null)

theorem all_root_oneEntry :
    oneEntry.IsDocument ∧ [] ∈ [[], [Key.Segment.ident "a"]] ∧
      all (m := Id) (observed (fun _ => pure ()) wrapped) [[], [.ident "a"]] oneEntry =
        .object [("was", .object [("a", .null)])] ∧
      ¬ ReplacesUpToRoot wrapped [[], [.ident "a"]] oneEntry := by
  have hroot : ([] : Key) ∈ [[], [Key.Segment.ident "a"]] := List.mem_cons_self
  obtain ⟨halone, hiff⟩ :=
    all_root_iff (m := Id) (fun _ => pure ()) wrapped isDocument_oneEntry hroot
  refine ⟨isDocument_oneEntry, hroot, halone, fun hreplaces => ?_⟩
  have hsame := hiff.mp hreplaces [.ident "a"] (by decide)
  cases hsame

theorem edit_rootAndEntry :
    ∃ query locations, Query.Path.engine.read "$|a" = .ok query ∧ oneEntry.IsDocument ∧
      query.locations oneEntry = .ok locations ∧ [] ∈ locations ∧
      query.edit (m := Except Fault) (fun v => .ok (wrapped v)) oneEntry =
        .ok (.object [("was", .object [("a", .null)])]) ∧
      ¬ ReplacesUpToRoot wrapped locations oneEntry := by
  have hpath : Query.Path.read "$|a" = .ok (.union .root (.fields ["a"])) := by cbv
  refine ⟨_, [[], [.ident "a"]], Query.Path.engine_read hpath, isDocument_oneEntry, rfl,
    List.mem_cons_self, rfl, ?_⟩
  intro hreplaces
  have hroot := eq_nil_of_replacesUpToRoot wrapped List.mem_cons_self hreplaces
  cases hroot [.ident "a"] (by decide)

end Reshape.Edit
