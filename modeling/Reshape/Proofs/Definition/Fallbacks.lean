import Reshape.Proofs.Definition.Bindings
import Reshape.Proofs.Outcome
import Reshape.Transform.Compile

/-!
Calls matched against two registries that differ in some fallbacks. Main statements:
`Registry.matchCall_sameBut`, that a match shows the difference only where its call leaves an
argument out, and `Builtin.parse_sameBut`, which says so of the definitions under two settings.
-/

namespace Reshape

open Pipeline

inductive Forall₃ {α β γ : Type} (R : α → β → γ → Prop) : List α → List β → List γ → Prop
  | nil : Forall₃ R [] [] []
  | cons {a : α} {b : β} {c : γ} {as : List α} {bs : List β} {cs : List γ} (h : R a b c)
      (hrest : Forall₃ R as bs cs) : Forall₃ R (a :: as) (b :: bs) (c :: cs)

/-! ### Matches of one call -/

/-- Two bindings of a term: one value, or two expressions with related matches. -/
inductive Binding.SameBut (R : Call → Match → Match → Prop) :
    Term → Binding (List Match) → Binding (List Match) → Prop
  | value (text : String) (v : Value) : SameBut R (.literal text) (.value v) (.value v)
  | expression {calls : List Call} {found others : List Match} (h : Forall₃ R calls found others) :
      SameBut R (.pipeline calls) (.expression found) (.expression others)

/-- An argument is bound to the same parameter twice. -/
inductive GivenSameBut (R : Call → Match → Match → Prop) :
    Argument → String × Binding (List Match) → String × Binding (List Match) → Prop
  | mk {label : Option String} {term : Term} {binding other : Binding (List Match)} (key : String)
      (h : Binding.SameBut R term binding other) :
      GivenSameBut R (.mk label term) (key, binding) (key, other)

/-- Two fallbacks of one parameter, which differ only if the parameter is free. -/
inductive FilledSameBut (free : String → Prop) :
    String × Binding (List Match) → String × Binding (List Match) → Prop
  | same (entry : String × Binding (List Match)) : FilledSameBut free entry entry
  | free {key : String} (hfree : free key) (v w : Value) :
      FilledSameBut free (key, .value v) (key, .value w)

/-- Two matches of a call that differ at most in fallbacks of free parameters, in the call itself
or in a call inside its arguments. The bindings are those that the arguments give, and then those
of the parameters that the call leaves out. -/
inductive Match.SameBut (free : String → String → Prop) : Call → Match → Match → Prop
  | mk {name function : String} {arguments : List Argument}
      {given others filled filled' : Entries (Binding (List Match))}
      (hgiven : Forall₃ (GivenSameBut (SameBut free)) arguments given others)
      (hfilled : List.Forall₂ (FilledSameBut (free function)) filled filled')
      (homitted : ∀ key ∈ Entries.keys filled, key ∉ Entries.keys given) :
      SameBut free (.mk name arguments) (.mk function (given ++ filled))
        (.mk function (others ++ filled'))

/-! ### Definitions -/

/-- Two parameters that differ at most in their fallbacks, and in these only if both have one and
the parameter is free. -/
structure Parameter.SameBut (free : String → Prop) (p q : Parameter) : Prop where
  name : p.name = q.name
  required : p.required = q.required
  fallback : p.fallback = q.fallback ∨
    free p.name ∧ p.fallback.isSome = true ∧ q.fallback.isSome = true

structure Definition.SameBut (free : String → String → Prop) (d e : Definition) : Prop where
  name : d.name = e.name
  aliases : d.aliases = e.aliases
  table : List.Forall₂ (Parameter.SameBut (free d.name)) d.table e.table

theorem Parameter.SameBut.refl {free : String → Prop} (p : Parameter) : p.SameBut free p :=
  ⟨rfl, rfl, .inl rfl⟩

theorem Definition.SameBut.refl {free : String → String → Prop} (d : Definition) :
    d.SameBut free d :=
  ⟨rfl, rfl, List.forall₂_same.mpr fun p _ => .refl p⟩

theorem Parameter.SameBut.isSome_fallback {free : String → Prop} {p q : Parameter}
    (h : p.SameBut free q) : p.fallback.isSome = q.fallback.isSome := by
  rcases h.fallback with hfallback | ⟨-, hp, hq⟩
  · rw [hfallback]
  · rw [hp, hq]

namespace Registry

variable {registry other : Registry} {free : String → String → Prop}
  {remaining remaining' : List Parameter} {done done' : Entries (Binding (List Match))}

theorem find?_sameBut (hregistry : List.Forall₂ (Definition.SameBut free) registry other)
    (name : String) :
    Option.Rel (Definition.SameBut free) (registry.find? name) (other.find? name) := by
  induction hregistry with
  | nil => exact .none
  | @cons d e registry other hd _ ih =>
      have hname : d.hasName name = e.hasName name := by
        rw [Definition.hasName, Definition.hasName, hd.name, hd.aliases]
      rw [find?, find?, List.find?_cons, List.find?_cons, ← hname]
      cases d.hasName name with
      | true => exact .some hd
      | false => exact ih

section Parameters

variable {key : String → Prop}

theorem filter_sameBut (h : List.Forall₂ (Parameter.SameBut key) remaining remaining')
    (name : String) :
    List.Forall₂ (Parameter.SameBut key) (remaining.filter fun p => p.name != name)
      (remaining'.filter fun p => p.name != name) := by
  refine List.rel_filter (fun p q hpq => ?_) h
  dsimp only
  rw [hpq.name]

theorem find?_label_sameBut (h : List.Forall₂ (Parameter.SameBut key) remaining remaining')
    (label : String) :
    Option.Rel (Parameter.SameBut key) (remaining.find? fun p => p.name == label)
      (remaining'.find? fun p => p.name == label) := by
  induction h with
  | nil => exact .none
  | @cons p q remaining remaining' hp _ ih =>
      rw [List.find?_cons, List.find?_cons, ← hp.name]
      cases p.name == label with
      | true => exact .some hp
      | false => exact ih

theorem missing_sameBut (h : List.Forall₂ (Parameter.SameBut key) remaining remaining') :
    missing remaining = missing remaining' := by
  induction h with
  | nil => rfl
  | @cons p q remaining remaining' hp _ ih =>
      have hneeded : (p.fallback.isNone && p.required) = (q.fallback.isNone && q.required) := by
        rw [← Option.not_isSome, ← Option.not_isSome, hp.isSome_fallback, hp.required]
      rw [missing, missing, List.filter_cons, List.filter_cons, ← hneeded]
      split
      · exact congrArg₂ List.cons hp.name ih
      · exact ih

theorem fallbacks_sameBut (h : List.Forall₂ (Parameter.SameBut key) remaining remaining') :
    List.Forall₂ (FilledSameBut key) (fallbacks remaining) (fallbacks remaining') := by
  induction h with
  | nil => exact .nil
  | @cons p q remaining remaining' hp _ ih =>
      rw [fallbacks, fallbacks, List.filterMap_cons, List.filterMap_cons, ← fallbacks, ← fallbacks,
        ← hp.name]
      rcases hp.fallback with hfallback | ⟨hfree, hsome, hsome'⟩
      · rw [← hfallback]
        cases p.fallback with
        | none => exact ih
        | some v => exact .cons (.same _) ih
      · obtain ⟨v, hv⟩ := Option.isSome_iff_exists.mp hsome
        obtain ⟨w, hw⟩ := Option.isSome_iff_exists.mp hsome'
        rw [hv, hw]
        exact .cons (.free hfree v w) ih

theorem choose_sameBut (function : String)
    (h : List.Forall₂ (Parameter.SameBut key) remaining remaining')
    (hdone : Entries.keys done = Entries.keys done') (label : Option String) (term : Term) :
    Alike (Parameter.SameBut key) (choose function remaining done label term)
      (choose function remaining' done' label term) := by
  cases label with
  | none =>
      cases h with
      | nil => exact .error _
      | cons hp _ => exact .ok hp
  | some label =>
      have hcontains : done.contains label = done'.contains label := by
        rw [Bool.eq_iff_iff, Entries.contains_iff, Entries.contains_iff, hdone]
      rw [choose, choose, ← hcontains]
      cases done.contains label with
      | true => exact .error _
      | false =>
          rw [if_neg Bool.false_ne_true, if_neg Bool.false_ne_true]
          have hfind := find?_label_sameBut h label
          generalize remaining.find? _ = found at hfind
          generalize remaining'.find? _ = found' at hfind
          cases hfind with
          | none => exact .error _
          | some hp => exact .ok hp

end Parameters

/-! ### Two runs of one call -/

/-- The matches of a call against the two registries are alike. -/
def MatchesAlike (registry other : Registry) (free : String → String → Prop) (call : Call) :
    Prop :=
  Alike (Match.SameBut free call) (registry.matchCall call) (other.matchCall call)

theorem matchCalls_sameBut (calls : List Call)
    (hcalls : ∀ call ∈ calls, MatchesAlike registry other free call) :
    Alike (Forall₃ (Match.SameBut free) calls) (registry.matchCalls calls)
      (other.matchCalls calls) := by
  induction calls with
  | nil => exact .ok .nil
  | cons call calls ih =>
      obtain ⟨hcall, hrest⟩ := List.forall_mem_cons.mp hcalls
      rw [matchCalls, matchCalls]
      rcases hcall.exists_eq with ⟨e, hleft, hright⟩ | ⟨m, m', hleft, hright, hm⟩
      · rw [hleft, hright]
        exact .error e
      · rw [hleft, hright]
        exact (ih hrest).map fun found others hfound => .cons hm hfound

theorem resolve_sameBut (function parameter : String) (term : Term)
    (hterm : ∀ calls, term = .pipeline calls →
      ∀ call ∈ calls, MatchesAlike registry other free call) :
    Alike (Binding.SameBut (Match.SameBut free) term) (registry.resolve function parameter term)
      (other.resolve function parameter term) := by
  cases term with
  | pipeline calls =>
      rw [resolve, resolve]
      exact (matchCalls_sameBut calls (hterm calls rfl)).map fun found others h => .expression h
  | literal text =>
      rw [resolve, resolve]
      cases decode text with
      | error e => exact .error _
      | ok v => exact .ok (.value text v)

/-- What two runs bind that have bound some arguments already. Only parameters that are left are
filled, and none that the rest of the arguments gives. -/
def BindsAlike (free : String → Prop) (R : Call → Match → Match → Prop)
    (remaining : List Parameter) (done done' : Entries (Binding (List Match)))
    (arguments : List Argument) (bindings bindings' : Entries (Binding (List Match))) : Prop :=
  ∃ given others filled filled', bindings = done ++ (given ++ filled) ∧
    bindings' = done' ++ (others ++ filled') ∧ Forall₃ (GivenSameBut R) arguments given others ∧
    List.Forall₂ (FilledSameBut free) filled filled' ∧
    ∀ key ∈ Entries.keys filled, key ∈ remaining.map Parameter.name ∧ key ∉ Entries.keys given

theorem complete_sameBut (function : String) (R : Call → Match → Match → Prop)
    (h : List.Forall₂ (Parameter.SameBut (free function)) remaining remaining') :
    Alike (BindsAlike (free function) R remaining done done' [])
      (complete function remaining done) (complete function remaining' done') := by
  rw [complete, complete, ← missing_sameBut h]
  cases missing remaining with
  | cons first more => exact .error _
  | nil =>
      refine .ok ⟨[], [], _, _, rfl, rfl, .nil, fallbacks_sameBut h, fun key hkey =>
        ⟨?_, List.not_mem_nil⟩⟩
      change key ∈ Entries.keys (fallbacks remaining) at hkey
      rw [keys_fallbacks] at hkey
      obtain ⟨p, hp, rfl⟩ := List.mem_map.mp hkey
      exact List.mem_map_of_mem (List.mem_of_mem_filter hp)

theorem bindArguments_sameBut (function : String) {arguments : List Argument}
    (harguments : ∀ argument ∈ arguments, ∀ calls, argument.term = .pipeline calls →
      ∀ call ∈ calls, MatchesAlike registry other free call)
    (h : List.Forall₂ (Parameter.SameBut (free function)) remaining remaining')
    (hdone : Entries.keys done = Entries.keys done') :
    Alike (BindsAlike (free function) (Match.SameBut free) remaining done done' arguments)
      (registry.bindArguments function remaining done arguments)
      (other.bindArguments function remaining' done' arguments) := by
  induction arguments generalizing remaining remaining' done done' with
  | nil =>
      rw [bindArguments, bindArguments]
      exact complete_sameBut function _ h
  | cons argument arguments ih =>
      obtain ⟨label, term⟩ := argument
      obtain ⟨hterm, hrest⟩ := List.forall_mem_cons.mp harguments
      rw [bindArguments, bindArguments]
      rcases (choose_sameBut function h hdone label term).exists_eq with
        ⟨e, hleft, hright⟩ | ⟨p, q, hleft, hright, hp⟩
      · rw [hleft, hright]
        exact .error e
      rw [hleft, hright]
      dsimp only
      rw [← hp.name]
      rcases (resolve_sameBut function p.name term hterm).exists_eq with
        ⟨e, hleft, hright⟩ | ⟨binding, binding', hleft, hright, hbinding⟩
      · rw [hleft, hright]
        exact .error e
      rw [hleft, hright]
      dsimp only
      have hkeys : Entries.keys (done ++ [(p.name, binding)]) =
          Entries.keys (done' ++ [(p.name, binding')]) := by
        rw [Entries.keys_append, Entries.keys_append, hdone]
        rfl
      refine (ih hrest (filter_sameBut h p.name) hkeys).imp ?_
      rintro _ _ ⟨given, others, filled, filled', rfl, rfl, hgiven, hfilled, homitted⟩
      refine ⟨(p.name, binding) :: given, (p.name, binding') :: others, filled, filled', by simp,
        by simp, .cons (.mk p.name hbinding) hgiven, hfilled, fun key hkey => ?_⟩
      obtain ⟨hleft, hnotGiven⟩ := homitted key hkey
      obtain ⟨q, hq, rfl⟩ := List.mem_map.mp hleft
      obtain ⟨hq, hne⟩ := List.mem_filter.mp hq
      refine ⟨List.mem_map_of_mem hq, ?_⟩
      rw [Entries.keys_cons, List.mem_cons, not_or]
      exact ⟨by simpa using hne, hnotGiven⟩

/-- A call is refused by both registries for the same reason, or its two matches differ at most in
fallbacks of free parameters. -/
theorem matchCall_sameBut (hregistry : List.Forall₂ (Definition.SameBut free) registry other)
    (call : Call) : MatchesAlike registry other free call := by
  induction call using Call.induction_nested with
  | parent name arguments ih =>
      have hfind := find?_sameBut hregistry name
      rw [MatchesAlike, matchCall, matchCall]
      generalize registry.find? name = found at hfind
      generalize other.find? name = found' at hfind
      cases hfind with
      | none => exact .error _
      | @some d e hd =>
          dsimp only
          rw [← hd.name]
          have hbind : Alike (BindsAlike (free d.name) (Match.SameBut free) d.table [] [] arguments)
              (registry.bindArguments d.name d.table [] arguments)
              (other.bindArguments d.name e.table [] arguments) :=
            bindArguments_sameBut d.name ih hd.table rfl
          rcases hbind.exists_eq with ⟨e, hleft, hright⟩ | ⟨bindings, bindings', hleft, hright, h⟩
          · rw [hleft, hright]
            exact .error _
          · rw [hleft, hright]
            obtain ⟨given, others, filled, filled', rfl, rfl, hgiven, hfilled, homitted⟩ := h
            rw [List.nil_append, List.nil_append]
            exact .ok (.mk hgiven hfilled fun key hkey => (homitted key hkey).2)

end Registry

/-! ### Settings -/

namespace Builtin

/-- The parameters with a fallback from the settings. -/
inductive IsConfigured : String → String → Prop
  | flattenPrefix : IsConfigured "flatten_keys" "prefix"
  | sortOrder : IsConfigured "sort" "order"
  | replaceLimit : IsConfigured "replace_string" "limit"

theorem definitions_sameBut (settings others : Settings) :
    List.Forall₂ (Definition.SameBut IsConfigured) (definitions settings) (definitions others) := by
  have hflattenKeys : (flattenKeys settings).SameBut IsConfigured (flattenKeys others) :=
    ⟨rfl, rfl, .cons ⟨rfl, rfl, .inr ⟨.flattenPrefix, rfl, rfl⟩⟩ .nil⟩
  have hsort : (sort settings).SameBut IsConfigured (sort others) :=
    ⟨rfl, rfl, .cons (.refl _) (.cons ⟨rfl, rfl, .inr ⟨.sortOrder, rfl, rfl⟩⟩ .nil)⟩
  have hreplaceString : (replaceString settings).SameBut IsConfigured (replaceString others) :=
    ⟨rfl, rfl, .cons (.refl _) (.cons (.refl _)
      (.cons ⟨rfl, rfl, .inr ⟨.replaceLimit, rfl, rfl⟩⟩ .nil))⟩
  simp only [definitions, List.forall₂_cons]
  exact ⟨.refl select, .refl mutate, .refl delete, .refl remove, .refl flatten, hflattenKeys,
    .refl expandKeys, .refl removeEmptyValues, .refl deepMerge, .refl keys, .refl values,
    .refl deleteKeys, hsort, .refl arraysToObjects, .refl eachKey, .refl eachValue,
    .refl visitKeys, .refl visitValues, hreplaceString, .refl wrapArray, .refl wrapObject,
    .refl insert, .nil⟩

/-- A text is refused under two settings for the same reason, or its calls have matches that are
the same at every depth, but for the configured fallbacks of calls that leave the argument out. -/
theorem parse_sameBut (settings others : Settings) (text : String) :
    Alike (fun found found' => ∃ calls, read text = .ok calls ∧
        Forall₃ (Match.SameBut IsConfigured) calls found found')
      ((definitions settings).parse text) ((definitions others).parse text) := by
  rw [Registry.parse, Registry.parse]
  cases hread : read text with
  | error d => exact .error _
  | ok calls =>
      dsimp only
      rcases (Registry.matchCalls_sameBut calls fun call _ =>
          Registry.matchCall_sameBut (definitions_sameBut settings others) call).exists_eq with
        ⟨e, hleft, hright⟩ | ⟨found, found', hleft, hright, hfound⟩
      · rw [hleft, hright]
        exact .error _
      · rw [hleft, hright]
        exact .ok ⟨calls, rfl, hfound⟩

end Builtin

end Reshape
