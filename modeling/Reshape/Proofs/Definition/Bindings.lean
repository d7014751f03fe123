import Mathlib.Data.List.Perm.Basic
import Reshape.Definition.Match
import Reshape.Proofs.Outcome
import Reshape.Proofs.Related
import Reshape.Proofs.Value.Entries

/-!
How the arguments of a call are bound. Main statements: `exists_isBound_of_bindArguments`, what a
run has bound, `bindArguments_of_isBound`, that labelled arguments are bound as they say,
`mem_bindings_of_matchCall`, where the bindings of a match come from, and `mem_keys_of_matchCall`,
which bindings a match always has. `match_induction` is the induction over the matches in the
expressions of a match.
-/

namespace Reshape.Pipeline

/-- What holds of a call if it holds of the calls in its arguments holds of every call. -/
theorem Call.induction_nested {motive : Call → Prop}
    (parent : ∀ name arguments, (∀ argument ∈ arguments, ∀ calls, argument.term = .pipeline calls →
      ∀ call ∈ calls, motive call) → motive (.mk name arguments)) (call : Call) : motive call := by
  cases call with
  | mk name arguments =>
      refine parent name arguments fun argument hargument calls hcalls call hcall => ?_
      exact Call.induction_nested parent call
termination_by sizeOf call
decreasing_by
  have hsizeCall := List.sizeOf_lt_of_mem hcall
  have hsizeArgument := List.sizeOf_lt_of_mem hargument
  cases argument
  rw [Argument.term] at hcalls
  subst hcalls
  simp only [Call.mk.sizeOf_spec, Argument.mk.sizeOf_spec, Term.pipeline.sizeOf_spec] at *
  omega

end Reshape.Pipeline

namespace Reshape

/-- The parameters that every match of the definition binds: those that no call may leave out,
and those with a fallback. -/
def Definition.assured (d : Definition) : List String :=
  (d.table.filter fun p => p.required || p.fallback.isSome).map Parameter.name

end Reshape

namespace Reshape.Registry

open Pipeline

variable {registry : Registry} {function : String} {remaining : List Parameter}
  {arguments : List Argument} {done bound bindings : Entries (Binding (List Match))}

/-! ### Terms -/

/-- What a term stands for, whichever parameter it is given to. -/
def Denotes (registry : Registry) (term : Term) (binding : Binding (List Match)) : Prop :=
  ∀ function parameter, registry.resolve function parameter term = .ok binding

theorem denotes_of_resolve {parameter : String} {term : Term} {binding : Binding (List Match)}
    (h : registry.resolve function parameter term = .ok binding) :
    registry.Denotes term binding := by
  intro function' parameter'
  cases term with
  | pipeline calls =>
      rw [resolve] at h ⊢
      exact h
  | literal text =>
      rw [resolve] at h ⊢
      split at h
      · exact h
      · cases h

theorem matchCalls_eq_mapM (calls : List Call) :
    registry.matchCalls calls = calls.mapM registry.matchCall := by
  induction calls with
  | nil =>
      rw [matchCalls]
      rfl
  | cons call calls ih =>
      rw [matchCalls, ih, List.mapM_cons]
      cases registry.matchCall call <;> rfl

theorem matchCalls_eq_ok_iff {calls : List Call} {found : List Match} :
    registry.matchCalls calls = .ok found ↔
      List.Forall₂ (fun call m => registry.matchCall call = .ok m) calls found := by
  rw [matchCalls_eq_mapM, mapM_eq_ok_iff]

theorem denotes_pipeline_iff {calls : List Call} {binding : Binding (List Match)} :
    registry.Denotes (.pipeline calls) binding ↔
      ∃ found, binding = .expression found ∧
        List.Forall₂ (fun call m => registry.matchCall call = .ok m) calls found := by
  constructor
  · intro h
    have hresolve := h "" ""
    rw [resolve] at hresolve
    obtain ⟨found, hfound, rfl⟩ := map_eq_ok_iff.mp hresolve
    exact ⟨found, rfl, matchCalls_eq_ok_iff.mp hfound⟩
  · rintro ⟨found, rfl, hfound⟩ function parameter
    rw [resolve]
    exact map_eq_ok_iff.mpr ⟨found, matchCalls_eq_ok_iff.mpr hfound, rfl⟩

theorem denotes_literal_iff {text : String} {binding : Binding (List Match)} :
    registry.Denotes (.literal text) binding ↔ ∃ v, binding = .value v ∧ decode text = .ok v := by
  constructor
  · intro h
    have hresolve := h "" ""
    rw [resolve] at hresolve
    split at hresolve <;> cases hresolve
    rename_i v hdecode
    exact ⟨v, rfl, hdecode⟩
  · rintro ⟨v, rfl, hdecode⟩ function parameter
    rw [resolve, hdecode]

/-! ### Parameters -/

/-- The parameters that are left when those of some names are bound. -/
def unbound (remaining : List Parameter) (keys : List String) : List Parameter :=
  remaining.filter fun p => !keys.contains p.name

theorem mem_unbound {keys : List String} {p : Parameter} :
    p ∈ unbound remaining keys ↔ p ∈ remaining ∧ p.name ∉ keys := by
  simp [unbound]

theorem unbound_nil (remaining : List Parameter) : unbound remaining [] = remaining := by
  simp [unbound]

theorem unbound_singleton (remaining : List Parameter) (key : String) :
    unbound remaining [key] = remaining.filter fun p => p.name != key := by
  refine List.filter_congr fun p _ => ?_
  rw [List.contains_cons, List.contains_nil, Bool.or_false]
  rfl

theorem unbound_append (remaining : List Parameter) (keys more : List String) :
    unbound remaining (keys ++ more) = unbound (unbound remaining keys) more := by
  rw [unbound, unbound, unbound, List.filter_filter]
  refine List.filter_congr fun p _ => ?_
  rw [List.contains_append, Bool.not_or, Bool.and_comm]

theorem unbound_cons (remaining : List Parameter) (key : String) (keys : List String) :
    unbound remaining (key :: keys) = unbound (remaining.filter fun p => p.name != key) keys := by
  rw [← unbound_singleton, ← unbound_append, List.singleton_append]

theorem complete_eq_ok_iff :
    complete function remaining done = .ok bindings ↔
      missing remaining = [] ∧ bindings = done ++ fallbacks remaining := by
  rw [complete]
  split
  · rename_i hmissing
    rw [hmissing, Except.ok.injEq, eq_comm]
    simp
  · rename_i hmissing
    rw [hmissing]
    simp

theorem keys_fallbacks (remaining : List Parameter) :
    Entries.keys (fallbacks remaining) =
      (remaining.filter fun p => p.fallback.isSome).map Parameter.name := by
  induction remaining with
  | nil => rfl
  | cons p remaining ih =>
      rw [fallbacks, List.filterMap_cons, List.filter_cons, ← fallbacks]
      cases p.fallback with
      | none => exact ih
      | some v => exact congrArg (p.name :: ·) ih

theorem nodup_keys_bindings {remaining : List Parameter}
    (hremaining : (remaining.map Parameter.name).Nodup) (hbound : (Entries.keys bound).Nodup) :
    (Entries.keys bound ++
      Entries.keys (fallbacks (unbound remaining (Entries.keys bound)))).Nodup := by
  rw [keys_fallbacks, List.nodup_append]
  refine ⟨hbound, ?_, ?_⟩
  · exact hremaining.sublist ((List.filter_sublist.trans List.filter_sublist).map Parameter.name)
  · intro key hkey other hother
    obtain ⟨p, hp, rfl⟩ := List.mem_map.mp hother
    rintro rfl
    exact (mem_unbound.mp (List.mem_filter.mp hp).1).2 hkey

theorem complete_of_keys {keys keys' : List String}
    (hmissing : missing (unbound remaining keys) = [])
    (hkeys : ∀ key, key ∈ keys' ↔
      key ∈ keys ∨ key ∈ Entries.keys (fallbacks (unbound remaining keys)))
    (done : Entries (Binding (List Match))) :
    complete function (unbound remaining keys') done = .ok done := by
  have hleft : ∀ p ∈ unbound remaining keys', p ∈ unbound remaining keys ∧ p.fallback = none := by
    intro p hp
    obtain ⟨hp, hname⟩ := mem_unbound.mp hp
    rw [hkeys, not_or, keys_fallbacks] at hname
    have hunbound : p ∈ unbound remaining keys := mem_unbound.mpr ⟨hp, hname.1⟩
    refine ⟨hunbound, ?_⟩
    rw [← Option.not_isSome_iff_eq_none]
    intro hfallback
    exact hname.2 (List.mem_map_of_mem (List.mem_filter.mpr ⟨hunbound, hfallback⟩))
  have hmissing' : missing (unbound remaining keys') = [] := by
    rw [missing, List.map_eq_nil_iff, List.filter_eq_nil_iff] at hmissing ⊢
    intro p hp
    exact hmissing p (hleft p hp).1
  have hfallbacks : fallbacks (unbound remaining keys') = [] := by
    rw [fallbacks, List.filterMap_eq_nil_iff]
    intro p hp
    rw [(hleft p hp).2]
    rfl
  rw [complete_eq_ok_iff, hfallbacks, List.append_nil]
  exact ⟨hmissing', rfl⟩

/-! ### Arguments -/

/-- An argument may be bound so: under its label if it has one. -/
structure Binds (registry : Registry) (argument : Argument)
    (entry : String × Binding (List Match)) : Prop where
  label : ∀ label, argument.label = some label → entry.1 = label
  term : registry.Denotes argument.term entry.2

theorem Binds.getD_label {registry : Registry} {label : Option String} {term : Term}
    {entry : String × Binding (List Match)} (h : registry.Binds (.mk label term) entry) :
    label.getD entry.1 = entry.1 := by
  cases label with
  | none => rfl
  | some l => exact (h.label l rfl).symm

/-- An argument is bound so: it has the label. -/
structure Gives (registry : Registry) (argument : Argument)
    (entry : String × Binding (List Match)) : Prop where
  label : argument.label = some entry.1
  term : registry.Denotes argument.term entry.2

/-- Arguments are bound each to a parameter of its own. -/
structure IsBound (R : Argument → String × Binding (List Match) → Prop)
    (remaining : List Parameter) (arguments : List Argument)
    (bound : Entries (Binding (List Match))) : Prop where
  each : List.Forall₂ R arguments bound
  distinct : (Entries.keys bound).Nodup
  known : ∀ key ∈ Entries.keys bound, key ∈ remaining.map Parameter.name

theorem name_of_choose {label : Option String} {term : Term} {p : Parameter}
    (h : choose function remaining done label term = .ok p) :
    p ∈ remaining ∧ ∀ l, label = some l → p.name = l := by
  unfold choose at h
  split at h
  · split at h
    · cases h
    · split at h <;> cases h
      rename_i hfind
      refine ⟨List.mem_of_find?_eq_some hfind, ?_⟩
      rintro _ ⟨⟩
      simpa using List.find?_some hfind
  · split at h <;> cases h
    exact ⟨List.mem_cons_self, nofun⟩

theorem exists_isBound_of_bindArguments
    (h : registry.bindArguments function remaining done arguments = .ok bindings) :
    ∃ bound, IsBound registry.Binds remaining arguments bound ∧
      complete function (unbound remaining (Entries.keys bound)) (done ++ bound) =
        .ok bindings := by
  induction arguments generalizing remaining done with
  | nil =>
      refine ⟨[], ⟨.nil, List.nodup_nil, nofun⟩, ?_⟩
      rw [bindArguments] at h
      rwa [Entries.keys_nil, unbound_nil, List.append_nil]
  | cons argument arguments ih =>
      obtain ⟨label, term⟩ := argument
      rw [bindArguments] at h
      split at h
      · cases h
      · rename_i p hchoose
        split at h
        · cases h
        · rename_i binding hresolve
          obtain ⟨hp, hlabel⟩ := name_of_choose hchoose
          obtain ⟨bound, hbound, hcomplete⟩ := ih h
          have hknown : ∀ key ∈ Entries.keys bound,
              key ∈ remaining.map Parameter.name ∧ key ≠ p.name := by
            intro key hkey
            obtain ⟨q, hq, rfl⟩ := List.mem_map.mp (hbound.known key hkey)
            obtain ⟨hq, hne⟩ := List.mem_filter.mp hq
            exact ⟨List.mem_map_of_mem hq, by simpa using hne⟩
          refine ⟨(p.name, binding) :: bound, ⟨?_, ?_, ?_⟩, ?_⟩
          · exact .cons ⟨hlabel, denotes_of_resolve hresolve⟩ hbound.each
          · refine List.nodup_cons.mpr ⟨fun hmem => ?_, hbound.distinct⟩
            exact (hknown p.name hmem).2 rfl
          · exact List.forall_mem_cons.mpr
              ⟨List.mem_map_of_mem hp, fun key hkey => (hknown key hkey).1⟩
          · rwa [Entries.keys_cons, unbound_cons, List.append_cons]

theorem choose_of_known (function : String) {label : String} (term : Term)
    (hknown : label ∈ remaining.map Parameter.name) (hdone : label ∉ Entries.keys done) :
    ∃ p, choose function remaining done (some label) term = .ok p ∧ p.name = label := by
  have hcontains : Entries.contains done label = false := by
    rw [← Bool.not_eq_true, Entries.contains_iff]
    exact hdone
  obtain ⟨q, hq, rfl⟩ := List.mem_map.mp hknown
  cases hfind : remaining.find? fun p => p.name == q.name with
  | none => exact absurd (beq_self_eq_true q.name) (List.find?_eq_none.mp hfind q hq)
  | some p =>
      refine ⟨p, ?_, by simpa using List.find?_some hfind⟩
      rw [choose, hcontains, hfind]
      rfl

/-- Labelled arguments are bound as they say, in whatever order they stand. -/
theorem bindArguments_of_isBound (hbound : IsBound registry.Gives remaining arguments bound)
    (hdone : ∀ key ∈ Entries.keys bound, key ∉ Entries.keys done) :
    registry.bindArguments function remaining done arguments =
      complete function (unbound remaining (Entries.keys bound)) (done ++ bound) := by
  obtain ⟨heach, hdistinct, hknown⟩ := hbound
  induction heach generalizing remaining done with
  | nil =>
      rw [bindArguments, Entries.keys_nil, unbound_nil, List.append_nil]
  | @cons argument entry arguments bound hgives heach ih =>
      obtain ⟨label, term⟩ := argument
      obtain ⟨key, binding⟩ := entry
      obtain ⟨rfl, hterm⟩ := hgives
      obtain ⟨hnotMem, hrestDistinct⟩ := List.nodup_cons.mp hdistinct
      obtain ⟨hkey, hrestKnown⟩ := List.forall_mem_cons.mp hknown
      obtain ⟨hkeyDone, hrestDone⟩ := List.forall_mem_cons.mp hdone
      obtain ⟨p, hchoose, rfl⟩ := choose_of_known function term hkey hkeyDone
      have hbinding : registry.resolve function p.name term = .ok binding := hterm _ _
      have hleftKnown : ∀ key ∈ Entries.keys bound,
          key ∈ (remaining.filter fun q => q.name != p.name).map Parameter.name := by
        intro key hkey
        obtain ⟨q, hq, rfl⟩ := List.mem_map.mp (hrestKnown key hkey)
        have hne : q.name ≠ p.name := fun heq => hnotMem (heq ▸ hkey)
        exact List.mem_map_of_mem (List.mem_filter.mpr ⟨hq, by simpa using hne⟩)
      have hleftDone : ∀ key ∈ Entries.keys bound,
          key ∉ Entries.keys (done ++ [(p.name, binding)]) := by
        intro key hkey hmem
        rw [Entries.keys_append, List.mem_append] at hmem
        rcases hmem with hmem | hmem
        · exact hrestDone key hkey hmem
        · exact hnotMem (List.mem_singleton.mp hmem ▸ hkey)
      rw [bindArguments, hchoose]
      dsimp only
      rw [hbinding]
      dsimp only
      rw [ih hleftDone hrestDistinct hleftKnown, Entries.keys_cons, unbound_cons,
        List.append_assoc, List.singleton_append]

/-! ### Calls -/

theorem matchCall_eq_ok_iff {name : String} {arguments : List Argument} {m : Match} :
    registry.matchCall (.mk name arguments) = .ok m ↔
      ∃ d bindings, registry.find? name = some d ∧
        registry.bindArguments d.name d.table [] arguments = .ok bindings ∧
        m = .mk d.name bindings := by
  rw [matchCall]
  constructor
  · intro h
    split at h
    · cases h
    · rename_i d hfind
      split at h <;> cases h
      rename_i bindings hbindings
      exact ⟨d, bindings, hfind, hbindings, rfl⟩
  · rintro ⟨d, bindings, hfind, hbindings, rfl⟩
    rw [hfind]
    dsimp only
    rw [hbindings]

/-- A binding of a call comes from one of its arguments, or else it is a fallback. -/
theorem mem_bindings_of_matchCall {name : String} {arguments : List Argument} {m : Match}
    (h : registry.matchCall (.mk name arguments) = .ok m) {e : String × Binding (List Match)}
    (he : e ∈ m.bindings) :
    (∃ argument ∈ arguments, registry.Denotes argument.term e.2) ∨
      ∃ d ∈ registry, ∃ p ∈ d.table, ∃ v, p.fallback = some v ∧ e = (p.name, .value v) := by
  obtain ⟨d, bindings, hfind, hbindings, rfl⟩ := matchCall_eq_ok_iff.mp h
  obtain ⟨bound, hbound, hcomplete⟩ := exists_isBound_of_bindArguments hbindings
  obtain ⟨-, rfl⟩ := complete_eq_ok_iff.mp hcomplete
  rw [Match.bindings, List.nil_append, List.mem_append] at he
  rcases he with he | he
  · obtain ⟨argument, hargument, hbinds⟩ := exists_mem_of_forall₂ hbound.each he
    exact .inl ⟨argument, hargument, hbinds.term⟩
  · obtain ⟨p, hp, hfallback⟩ := List.mem_filterMap.mp he
    obtain ⟨v, hv, rfl⟩ := Option.map_eq_some_iff.mp hfallback
    exact .inr ⟨d, List.mem_of_find?_eq_some hfind, p, (mem_unbound.mp hp).1, v, hv, rfl⟩

/-- What holds of a match if it holds of the matches in its expressions holds of every match of
a call. -/
theorem match_induction {motive : Match → Prop}
    (step : ∀ call m, registry.matchCall call = .ok m →
      (∀ key found, (key, .expression found) ∈ m.bindings → ∀ inner ∈ found, motive inner) →
      motive m)
    (call : Call) : ∀ m, registry.matchCall call = .ok m → motive m := by
  induction call using Call.induction_nested with
  | parent name arguments ih =>
      intro m hm
      refine step _ m hm fun key found hmem inner hinner => ?_
      rcases mem_bindings_of_matchCall hm hmem with
        ⟨argument, hargument, hdenotes⟩ | ⟨d, hd, p, hp, v, hv, hentry⟩
      · -- The expression is the pipeline of an argument.
        cases hterm : argument.term with
        | literal text =>
            rw [hterm] at hdenotes
            obtain ⟨v, hv, -⟩ := denotes_literal_iff.mp hdenotes
            cases hv
        | pipeline calls =>
            rw [hterm] at hdenotes
            obtain ⟨_, hfound, hmatches⟩ := denotes_pipeline_iff.mp hdenotes
            cases hfound
            obtain ⟨call, hcall, hmatch⟩ := exists_mem_of_forall₂ hmatches hinner
            exact ih argument hargument calls hterm call hcall inner hmatch
      · cases hentry

theorem missing_eq_nil_iff :
    missing remaining = [] ↔ ∀ p ∈ remaining, p.required = true → p.fallback.isSome = true := by
  rw [missing, List.map_eq_nil_iff, List.filter_eq_nil_iff]
  refine forall₂_congr fun p _ => ?_
  cases p.fallback <;> simp

theorem mem_keys_of_matchCall {call : Call} {m : Match} (h : registry.matchCall call = .ok m) :
    ∃ d ∈ registry, m.name = d.name ∧ ∀ key ∈ d.assured, key ∈ Entries.keys m.bindings := by
  obtain ⟨name, arguments⟩ := call
  obtain ⟨d, bindings, hfind, hbindings, rfl⟩ := matchCall_eq_ok_iff.mp h
  obtain ⟨bound, hbound, hcomplete⟩ := exists_isBound_of_bindArguments hbindings
  obtain ⟨hmissing, rfl⟩ := complete_eq_ok_iff.mp hcomplete
  refine ⟨d, List.mem_of_find?_eq_some hfind, rfl, fun key hkey => ?_⟩
  obtain ⟨p, hp, rfl⟩ := List.mem_map.mp hkey
  obtain ⟨hp, hassured⟩ := List.mem_filter.mp hp
  rw [Match.bindings, List.nil_append, Entries.keys_append, List.mem_append]
  by_cases hmem : p.name ∈ Entries.keys bound
  · exact .inl hmem
  · -- No argument is bound to the parameter, so that its fallback is.
    have hunbound : p ∈ unbound d.table (Entries.keys bound) := mem_unbound.mpr ⟨hp, hmem⟩
    have hfallback : p.fallback.isSome = true :=
      (Bool.or_eq_true_iff.mp hassured).elim (missing_eq_nil_iff.mp hmissing p hunbound) id
    rw [keys_fallbacks]
    exact .inr (List.mem_map_of_mem (List.mem_filter.mpr ⟨hunbound, hfallback⟩))

end Reshape.Registry
