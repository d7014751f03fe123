import Reshape.Proofs.Transform.Agreement
import Reshape.Proofs.Transform.Build
import Reshape.Transform.Compile

/-!
Errors of patterns that leave the compilation of a pipeline as they are. Main statement:
`Builtin.compile_isReported_iff`, that a compilation gives a chain or a reported error
unless the first match without a transform leaks. From an expression only those errors leak
that are not of a value.
-/

namespace Reshape

open Pattern (Regex Template)

variable {e : Pattern.Error}

namespace Match

theorem leaks_built_iff [Tools] (m : Match) : m.built.Leaks e ↔ m.arguments.Leaks e :=
  ⟨.of_value_eq m.function_built m.value_built,
    .of_value_eq m.function_built.symm fun name => (m.value_built name).symm⟩

theorem takes_built_iff [Tools] (m : Match) {inner : Built} :
    m.built.Takes inner ↔
      ∃ calls, m.arguments.Takes calls ∧ inner = ⟨calls.map Match.name, buildAll calls⟩ := by
  have hexpression : m.built.expression "expression" = .ok inner ↔
      ∃ calls, m.arguments.expression "expression" = .ok calls ∧
        inner = ⟨calls.map Match.name, buildAll calls⟩ := by
    rw [expression_built]
    cases m.arguments.expression "expression" with
    | error reason => simp [Except.map]
    | ok calls => simp [Except.map, eq_comm]
  constructor
  · intro h
    cases h with
    | each hfunction hinner =>
      obtain ⟨calls, hcalls, hinner⟩ := hexpression.mp hinner
      exact ⟨calls, .each (m.function_built ▸ hfunction) hcalls, hinner⟩
    | mutate hfunction hquery hinner =>
      obtain ⟨calls, hcalls, hinner⟩ := hexpression.mp hinner
      have htakes : m.arguments.Takes calls :=
        .mutate (m.function_built ▸ hfunction) (m.string_built _ ▸ hquery) hcalls
      exact ⟨calls, htakes, hinner⟩
  · rintro ⟨calls, htakes, hinner⟩
    cases htakes with
    | each hfunction hcalls =>
      exact .each (m.function_built ▸ hfunction) (hexpression.mpr ⟨calls, hcalls, hinner⟩)
    | mutate hfunction hquery hcalls =>
      exact .mutate (m.function_built ▸ hfunction) (m.string_built _ ▸ hquery)
        (hexpression.mpr ⟨calls, hcalls, hinner⟩)

/-- An error leaks from a match: from its own arguments, or from a match in its expression
of which all the matches before it have transforms. The errors of values do not leak from there. -/
inductive Leaks [Tools] : Match → Pattern.Error → Prop
  | own {m : Match} {e : Pattern.Error} (h : m.arguments.Leaks e) : Leaks m e
  | inside {m inner : Match} {before after : List Match} {e : Pattern.Error}
      (htakes : m.arguments.Takes (before ++ inner :: after))
      (hbefore : ∀ a ∈ before, ∃ t, a.build = .ok t) (hinner : Leaks inner e)
      (he : e.isOfValue = false) : Leaks m e

theorem Leaks.cases_of [Tools] {m : Match} (h : m.Leaks e) :
    e = .repeatTooLarge ∨ (∃ digits, Decimal.digitLimit < digits ∧ e = .numeralTooLong digits) ∨
      e = .mixedGlobalAlphabets ∨ ∃ group, e = .groupNotFound group := by
  have hpattern : ∀ {text}, Regex.read Tools.charNamed? text = .error e → e.IsExceptional →
      e = .repeatTooLarge ∨
        (∃ digits, Decimal.digitLimit < digits ∧ e = .numeralTooLong digits) ∨
        e = .mixedGlobalAlphabets ∨ ∃ group, e = .groupNotFound group := by
    intro text hread he
    rcases Regex.read_eq_error hread with ⟨problem, offset, rfl⟩ | hof
    · exact absurd rfl he
    · cases hof with
      | unusable => exact absurd rfl he
      | repeatTooLarge => exact .inl rfl
      | numeralTooLong hdigits => exact .inr (.inl ⟨_, hdigits, rfl⟩)
      | mixedGlobalAlphabets => exact .inr (.inr (.inl rfl))
  induction h with
  | own h =>
    cases h with
    | keyPattern _ _ hread he => exact hpattern hread he
    | searchPattern _ _ _ _ hread he => exact hpattern hread he
    | replacement _ _ _ _ _ hread he =>
      rcases Template.read_eq_error hread with ⟨problem, offset, rfl⟩ | ⟨group, rfl, -⟩
      · exact absurd rfl he
      · exact .inr (.inr (.inr ⟨group, rfl⟩))
  | inside _ _ _ _ ih => exact ih hpattern

theorem buildAll_eq_error_iff [Tools] {calls : List Match} {reason : BuildError} :
    buildAll calls = .error reason ↔
      ∃ before m after, calls = before ++ m :: after ∧
        (∀ a ∈ before, ∃ t, a.build = .ok t) ∧ m.build = .error reason := by
  rw [buildAll_eq_mapM, mapM_eq_error_iff]

theorem sizeOf_lt_of_takes {m inner : Match} {before after : List Match}
    (h : m.arguments.Takes (before ++ inner :: after)) : sizeOf inner < sizeOf m := by
  have hexpression : m.arguments.expression "expression" = .ok (before ++ inner :: after) := by
    cases h <;> assumption
  cases m with
  | mk name bindings =>
    have hentry : ("expression", .expression (before ++ inner :: after)) ∈ bindings :=
      expression_mem hexpression
    have hbindings := List.sizeOf_lt_of_mem hentry
    have hmem : inner ∈ before ++ inner :: after := by simp
    have hinner := List.sizeOf_lt_of_mem hmem
    simp only [Prod.mk.sizeOf_spec, Binding.expression.sizeOf_spec, mk.sizeOf_spec] at *
    omega

theorem leaks_of_build [Tools] {m : Match} (h : m.build = .error (.exceptional e)) : m.Leaks e := by
  rw [build_eq_run] at h
  rcases Builder.leaks_or_takes_of_run h with hleaks | ⟨inner, htakes, hinner, he⟩
  · exact .own (m.leaks_built_iff.mp hleaks)
  · obtain ⟨calls, hcalls, rfl⟩ := m.takes_built_iff.mp htakes
    obtain ⟨before, inner, after, rfl, hbefore, hbuild⟩ := buildAll_eq_error_iff.mp hinner
    -- The match that fails is inside the arguments, so the recursion ends.
    have hlt := sizeOf_lt_of_takes hcalls
    exact .inside hcalls hbefore (leaks_of_build hbuild) he
termination_by sizeOf m

theorem build_eq_exceptional_iff [Tools] (m : Match) :
    m.build = .error (.exceptional e) ↔ m.Leaks e := by
  refine ⟨leaks_of_build, fun h => ?_⟩
  induction h with
  | own h =>
    rw [build_eq_run]
    exact Builder.run_of_leaks ((leaks_built_iff _).mpr h)
  | inside htakes hbefore hinner he ih =>
    rw [build_eq_run]
    exact Builder.run_of_takes ((takes_built_iff _).mpr ⟨_, htakes, rfl⟩)
      (buildAll_eq_error_iff.mpr ⟨_, _, _, rfl, hbefore, ih⟩) he

end Match

/-- The first of some matches that has no transform leaks an error. -/
def Match.FirstLeaks [Tools] (found : List Match) (e : Pattern.Error) : Prop :=
  ∃ before m after, found = before ++ m :: after ∧ (∀ a ∈ before, ∃ t, a.build = .ok t) ∧ m.Leaks e

def CompileError.IsReported : CompileError → Prop
  | malformed _ => True
  | mismatch _ => True
  | build reason => reason.IsReported

namespace Registry

variable {registry : Registry}

theorem parseAll_ne_build (registry : Registry) (texts : List String) (reason : BuildError) :
    registry.parseAll texts ≠ .error (.build reason) := by
  induction texts with
  | nil => simp [parseAll]
  | cons text rest ih =>
    rw [parseAll]
    have hparse : registry.parse text ≠ .error (.build reason) := by
      unfold parse
      grind
    split
    · rename_i error herror
      intro h
      cases h
      exact hparse herror
    · intro h
      exact ih (map_eq_error_iff.mp h)

theorem compile_eq_build_iff [Tools] {texts : List String} {reason : BuildError} :
    registry.compile texts = .error (.build reason) ↔
      ∃ found, registry.parseAll texts = .ok found ∧ buildAll found = .error reason := by
  rw [compile]
  cases hparse : registry.parseAll texts with
  | error error =>
    have hne := registry.parseAll_ne_build texts reason
    rw [hparse] at hne
    simpa using hne
  | ok found => cases hbuild : buildAll found <;> simp [hbuild]

theorem compile_eq_exceptional_iff [Tools] (texts : List String) :
    registry.compile texts = .error (.build (.exceptional e)) ↔
      ∃ found, registry.parseAll texts = .ok found ∧ Match.FirstLeaks found e := by
  rw [compile_eq_build_iff]
  simp only [Match.buildAll_eq_error_iff, Match.build_eq_exceptional_iff, Match.FirstLeaks]

end Registry

namespace Builtin

/-- Other errors than those of patterns are reported, whatever the pipelines are. -/
theorem isReported_or_of_compile [Tools] (settings : Settings) {texts : List String}
    {error : CompileError} (h : (definitions settings).compile texts = .error error) :
    error.IsReported ∨ ∃ e, error = .build (.exceptional e) := by
  cases error with
  | malformed d => exact .inl trivial
  | mismatch reason => exact .inl trivial
  | build reason =>
    obtain ⟨found, hparse, hbuild⟩ := Registry.compile_eq_build_iff.mp h
    rcases ((agrees_buildAll_parsed settings hparse).of_eq_error hbuild).reported with
      hreported | ⟨e, rfl⟩
    · exact .inl hreported
    · exact .inr ⟨e, rfl⟩

/-- A compilation gives a chain or a reported error, unless all pipelines are matched and
the first match without a transform leaks. What leaks then is the error. It is that of a count
beyond all bounds or of too many digits, of flags for two alphabets, or of the name of a group that
a pattern does not have. -/
theorem compile_isReported_iff [Tools] (settings : Settings) (texts : List String) :
    (((∃ chain, (definitions settings).compile texts = .ok chain) ∨
        ∃ error, (definitions settings).compile texts = .error error ∧ error.IsReported) ↔
      ¬ ∃ found e, (definitions settings).parseAll texts = .ok found ∧ Match.FirstLeaks found e) ∧
    (∀ e, (definitions settings).compile texts = .error (.build (.exceptional e)) ↔
      ∃ found, (definitions settings).parseAll texts = .ok found ∧ Match.FirstLeaks found e) ∧
    ∀ found e, Match.FirstLeaks found e →
      e = .repeatTooLarge ∨
        (∃ digits, Decimal.digitLimit < digits ∧ e = .numeralTooLong digits) ∨
        e = .mixedGlobalAlphabets ∨ ∃ group, e = .groupNotFound group := by
  have hleak := fun e => @Registry.compile_eq_exceptional_iff e (definitions settings) _ texts
  refine ⟨⟨?_, fun hnone => ?_⟩, hleak, ?_⟩
  · rintro hreported ⟨found, e, hparse, hleaks⟩
    have hcompile := (hleak e).mpr ⟨found, hparse, hleaks⟩
    rcases hreported with ⟨chain, hchain⟩ | ⟨error, herror, hreported⟩
    · rw [hcompile] at hchain
      cases hchain
    · rw [hcompile] at herror
      cases herror
      exact hreported
  · cases hcompile : (definitions settings).compile texts with
    | ok chain => exact .inl ⟨chain, rfl⟩
    | error error =>
      rcases isReported_or_of_compile settings hcompile with hreported | ⟨e, rfl⟩
      · exact .inr ⟨error, rfl, hreported⟩
      · obtain ⟨found, hparse, hleaks⟩ := (hleak e).mp hcompile
        exact absurd ⟨found, e, hparse, hleaks⟩ hnone
  · rintro found e ⟨before, m, after, -, -, hm⟩
    exact hm.cases_of

open Pipeline in
theorem read_replaceUnknownGroup :
    read "replace_string('a', '\\g<x>')" =
      .ok [.mk "replace_string" [.mk none (.literal "'a'"), .mk none (.literal "'\\g<x>'")]] := by
  have hname : IsName "replace_string".toList := isName_cons (by decide) (by decide)
  have hspace : IsGap [' '] := by simp [IsGap, isSpace]
  have hquotable : Grammar.Quotable '\'' ['\\', 'g', '<', 'x', '>'] :=
    .escaped 'g' (.plain (by decide) (by decide) (.plain (by decide) (by decide)
      (.plain (by decide) (by decide) .nil)))
  have hpattern : Layout (.argument (.mk none (.literal "'a'"))) "'a'".toList :=
    .positional (.literal (.string (.mk (.inr rfl) (.plain (by decide) (by decide) .nil))))
  have hreplacement : Layout (.argument (.mk none (.literal "'\\g<x>'"))) "'\\g<x>'".toList :=
    .positional (.literal (.string (.mk (.inr rfl) hquotable)))
  have harguments := Layout.firstArgument isGap_nil hpattern
    (.nextArgument isGap_nil hspace hreplacement (.endArguments isGap_nil))
  exact read_of_isLayout
    ⟨[], _, [], isGap_nil, .calls (.full hname isGap_nil harguments) .last, isGap_nil, rfl⟩

theorem compile_replaceUnknownGroup :
    @Registry.compile .ofPaths (definitions { }) ["replace_string('a', '\\g<x>')"] =
      .error (.build (.exceptional (.groupNotFound "x"))) := by
  have hfind : (definitions { }).find? "replace_string" = some (replaceString { }) := rfl
  have hname : (replaceString { }).name = "replace_string" := rfl
  have hpattern : Pipeline.decode "'a'" = .ok (.string "a") := rfl
  have hreplacement : Pipeline.decode "'\\g<x>'" = .ok (.string "\\g<x>") := rfl
  have hmatch : (definitions { }).matchCalls [.mk "replace_string"
      [.mk none (.literal "'a'"), .mk none (.literal "'\\g<x>'")]] =
      .ok [.mk "replace_string" [("regex", .value (.string "a")),
        ("replacement", .value (.string "\\g<x>")), ("limit", .value (.number (.int 0)))]] := by
    simp only [Registry.matchCalls, Registry.matchCall, hfind, hname, Registry.bindArguments,
      Registry.resolve, hpattern, hreplacement]
    rfl
  have hregex : Regex.read (fun _ => none) "a" =
      .ok ⟨"a", .both (.oneOf false [.code 97] .exact) .empty, 0, []⟩ :=
    rfl
  have htemplate : Template.read ⟨"a", .both (.oneOf false [.code 97] .exact) .empty, 0, []⟩
      "\\g<x>" = .error (.groupNotFound "x") := by
    decide +kernel
  have hleaks : @Match.Leaks .ofPaths (.mk "replace_string" [("regex", .value (.string "a")),
      ("replacement", .value (.string "\\g<x>")), ("limit", .value (.number (.int 0)))])
      (.groupNotFound "x") :=
    letI := Tools.ofPaths
    .own (.replacement rfl rfl rfl rfl hregex htemplate (by simp [Pattern.Error.IsExceptional,
      Pattern.Error.typeName]))
  refine (@Registry.compile_eq_exceptional_iff _ (definitions { }) .ofPaths _).mpr
    ⟨_, ?_, [], _, [], rfl, by simp, hleaks⟩
  simp only [Registry.parseAll, Registry.parse, read_replaceUnknownGroup, hmatch]
  rfl

end Builtin

end Reshape
