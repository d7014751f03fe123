import Reshape.Proofs.Definition.Bindings
import Reshape.Proofs.Pipeline.Accepted
import Reshape.Transform.Compile

namespace Reshape

theorem buildAll_eq_mapM [Tools] (found : List Match) :
    buildAll found = found.mapM Match.build := by
  induction found with
  | nil =>
      rw [buildAll]
      rfl
  | cons m found ih =>
      rw [buildAll, ih, List.mapM_cons]
      cases m.build <;> rfl

theorem buildAll_eq_ok_iff [Tools] {found : List Match} {chain : Chain} :
    buildAll found = .ok chain ↔ List.Forall₂ (fun m t => m.build = .ok t) found chain := by
  rw [buildAll_eq_mapM, mapM_eq_ok_iff]

/-- A chain is built from matches as its members are. -/
theorem buildAll_ends [Tools] {E : BuildError → Prop} {Q : Transform → Prop} {found : List Match}
    (h : ∀ m ∈ found, Ends E Q m.build) :
    Ends E (fun chain => ∀ t ∈ chain, Q t) (buildAll found) := by
  rw [buildAll_eq_mapM]
  exact Ends.mapM h

namespace Registry

open Pipeline

variable {registry : Registry}

/-- A call is matched, and the match built to a transform. -/
def Makes [Tools] (registry : Registry) (call : Call) (t : Transform) : Prop :=
  ∃ m, registry.matchCall call = .ok m ∧ m.build = .ok t

theorem parse_eq_ok_iff {text : String} {found : List Match} :
    registry.parse text = .ok found ↔
      ∃ calls, read text = .ok calls ∧ registry.matchCalls calls = .ok found := by
  rw [parse]
  cases read text with
  | error d => simp
  | ok calls => cases hmatch : registry.matchCalls calls <;> simp [hmatch]

theorem parseAll_eq_ok_iff {texts : List String} {found : List Match} :
    registry.parseAll texts = .ok found ↔
      ∃ callss, List.Forall₂ (fun text calls => read text = .ok calls) texts callss ∧
        List.Forall₂ (fun call m => registry.matchCall call = .ok m) callss.flatten found := by
  induction texts generalizing found with
  | nil =>
      rw [parseAll, Except.ok.injEq, eq_comm]
      simp
  | cons text texts ih =>
      rw [parseAll]
      constructor
      · intro h
        split at h
        · cases h
        · rename_i first hfirst
          obtain ⟨rest, hrest, rfl⟩ := map_eq_ok_iff.mp h
          obtain ⟨calls, hread, hmatch⟩ := parse_eq_ok_iff.mp hfirst
          obtain ⟨callss, hreads, hmatches⟩ := ih.mp hrest
          exact ⟨calls :: callss, .cons hread hreads,
            List.rel_append (matchCalls_eq_ok_iff.mp hmatch) hmatches⟩
      · rintro ⟨_, hreads, hmatches⟩
        obtain ⟨calls, callss, hread, hrest, rfl⟩ := List.forall₂_cons_left_iff.mp hreads
        obtain ⟨first, rest, rfl, hfirst, hmore⟩ := exists_append_of_forall₂ hmatches
        rw [parse_eq_ok_iff.mpr ⟨calls, hread, matchCalls_eq_ok_iff.mpr hfirst⟩]
        exact map_eq_ok_iff.mpr ⟨rest, ih.mpr ⟨callss, hrest, hmore⟩, rfl⟩

theorem compile_eq_ok_iff [Tools] {texts : List String} {chain : Chain} :
    registry.compile texts = .ok chain ↔
      ∃ callss, List.Forall₂ (fun text calls => read text = .ok calls) texts callss ∧
        List.Forall₂ registry.Makes callss.flatten chain := by
  have hcompile : registry.compile texts = .ok chain ↔
      ∃ found, registry.parseAll texts = .ok found ∧ buildAll found = .ok chain := by
    rw [compile]
    cases registry.parseAll texts with
    | error e => simp
    | ok found => cases hbuild : buildAll found <;> simp [hbuild]
  rw [hcompile]
  constructor
  · rintro ⟨found, hparse, hbuild⟩
    obtain ⟨callss, hreads, hmatches⟩ := parseAll_eq_ok_iff.mp hparse
    exact ⟨callss, hreads, forall₂_exists_iff.mpr ⟨found, hmatches, buildAll_eq_ok_iff.mp hbuild⟩⟩
  · rintro ⟨callss, hreads, hmakes⟩
    obtain ⟨found, hmatches, hbuilds⟩ := forall₂_exists_iff.mp hmakes
    exact ⟨found, parseAll_eq_ok_iff.mpr ⟨callss, hreads, hmatches⟩, buildAll_eq_ok_iff.mpr hbuilds⟩

theorem compile_singleton_iff [Tools] {text : String} {chain : Chain} :
    registry.compile [text] = .ok chain ↔
      ∃ calls, read text = .ok calls ∧ List.Forall₂ registry.Makes calls chain := by
  rw [compile_eq_ok_iff]
  constructor
  · rintro ⟨_, hreads, hmakes⟩
    obtain ⟨calls, _, hread, hnil, rfl⟩ := List.forall₂_cons_left_iff.mp hreads
    rw [List.forall₂_nil_left_iff.mp hnil, List.flatten_singleton] at hmakes
    exact ⟨calls, hread, hmakes⟩
  · rintro ⟨calls, hread, hmakes⟩
    exact ⟨[calls], .cons hread .nil, by rwa [List.flatten_singleton]⟩

theorem compile_name [Tools] (name : String) (hname : IsName name.toList) {t : Transform}
    (ht : registry.Makes (.mk name []) t) : registry.compile [name] = .ok [t] :=
  compile_singleton_iff.mpr ⟨_, read_name hname, .cons ht .nil⟩

end Registry

end Reshape
