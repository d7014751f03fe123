import Reshape.Proofs.Definition.Match
import Reshape.Proofs.Pipeline.LiteralArgument
import Reshape.Proofs.Transform.Built
import Reshape.Proofs.Transform.Compile
import Reshape.Query.Engine
import Reshape.Transform.Builtin

namespace Reshape

variable {α β : Type}

/-- An error by which the definitions and the builders disagree: there is no builder, or it asks
for an argument that is not bound. -/
def BuildError.IsDisagreement : BuildError → Prop
  | unknownTransformation _ => True
  | missing _ _ => True
  | within _ _ reason => reason.IsDisagreement
  | _ => False

/-- An error with a message of its own. What is no expression is shown in it, if it can be
written. -/
def BuildError.IsReported : BuildError → Prop
  | exceptional _ => False
  | notAnExpression _ _ v => v.isShort = true
  | _ => True

/-- An error other than a disagreement. If it is not reported it is that of a pattern. -/
structure BuildError.IsProper (reason : BuildError) : Prop where
  agrees : ¬ reason.IsDisagreement
  reported : reason.IsReported ∨ ∃ e, reason = .exceptional e

/-- A computation that does not fail by a disagreement. -/
abbrev Agrees (x : Except BuildError α) : Prop :=
  Ends BuildError.IsProper (fun _ => True) x

theorem Agrees.map {x : Except BuildError α} (hx : Agrees x) (f : α → β) : Agrees (f <$> x) :=
  Ends.map hx fun _ _ => trivial

theorem Agrees.bind {x : Except BuildError α} (hx : Agrees x) {next : α → Except BuildError β}
    (hnext : ∀ a, Agrees (next a)) : Agrees (x >>= next) :=
  Ends.bind hx fun a _ => hnext a

/-! ### Arguments -/

namespace Arguments

variable {E : Type} {arguments : Arguments E} {name : String}

/-- Only an argument that is not bound is refused by a disagreement. -/
theorem Answers.agrees {x : Except BuildError α} (hx : arguments.Answers name x)
    (h : name ∈ Entries.keys arguments.bindings)
    (hshort : name = "expression" → ∀ v, arguments.value name = .ok v → v.isShort = true) :
    Agrees x := by
  refine hx.imp_error fun reason hrefuses => ?_
  cases hrefuses with
  | missing hnot => exact absurd h hnot
  | notAnExpression hname hvalue => exact ⟨not_false, .inl (hshort hname _ hvalue)⟩
  | _ => exact ⟨not_false, .inl trivial⟩

theorem agrees_optional {get : Arguments E → String → Except BuildError α}
    (hget : arguments.Answers name (get arguments name)) (hname : name ≠ "expression") :
    Agrees (arguments.optional name get) := by
  unfold optional
  split
  · rename_i hpresent
    exact (hget.agrees (Entries.contains_iff.mp hpresent) (absurd · hname)).map some
  · exact .ok trivial

theorem inside_isProper {reason : BuildError} (h : reason.IsProper) :
    (arguments.inside name reason).IsProper := by
  unfold inside
  split
  · split
    · exact ⟨not_false, .inl trivial⟩
    · exact h
  · exact ⟨h.agrees, .inl trivial⟩

end Arguments

/-! ### Builders -/

namespace Builder

variable {arguments : Arguments Built} {names : List String}

/-- Arguments with a binding for each of some names, and with expressions that agree. -/
structure Provides (arguments : Arguments Built) (names : List String) : Prop where
  bound : ∀ name ∈ names, name ∈ Entries.keys arguments.bindings
  chain : ∀ name built, arguments.expression name = .ok built → Agrees built.chain
  short : ∀ v, arguments.value "expression" = .ok v → v.isShort = true

theorem Provides.agrees (h : Provides arguments names) {name : String} (hname : name ∈ names)
    {x : Except BuildError α} (hx : arguments.Answers name x) : Agrees x :=
  hx.agrees (h.bound name hname) fun heq => heq ▸ h.short

/-- A builder that can do with the arguments of some names: it asks for others only where they
are bound. -/
def AsksOnly (builder : Builder) (names : List String) : Prop :=
  ∀ arguments, Provides arguments names → Agrees (builder arguments)

theorem agrees_readQuery [Tools] (text : String) : Agrees (readQuery text) := by
  unfold readQuery
  split
  · exact .ok trivial
  · exact .error ⟨not_false, .inl trivial⟩

theorem agrees_readOrder (text : String) : Agrees (readOrder text) := by
  unfold readOrder
  split
  · exact .ok trivial
  · exact .error ⟨not_false, .inl trivial⟩

theorem agrees_readPattern [Tools] (text : String) : Agrees (readPattern text) := by
  unfold readPattern
  split
  · exact .ok trivial
  · rename_i e _
    cases e with
    | malformed | unusable => exact .error ⟨not_false, .inl trivial⟩
    | _ => exact .error ⟨not_false, .inr ⟨_, rfl⟩⟩

theorem agrees_readReplacement (regex : Pattern.Regex) (text : String) :
    Agrees (readReplacement regex text) := by
  unfold readReplacement
  split
  · exact .ok trivial
  · rename_i e _
    cases e with
    | malformed | unusable => exact .error ⟨not_false, .inl trivial⟩
    | _ => exact .error ⟨not_false, .inr ⟨_, rfl⟩⟩

theorem agrees_query [Tools] (h : Provides arguments names) (hname : "query" ∈ names) :
    Agrees (query arguments) :=
  (h.agrees hname (Arguments.answers_string _)).bind agrees_readQuery

theorem agrees_chain (h : Provides arguments names) (hname : "expression" ∈ names) :
    Agrees (chain arguments) := by
  have hexpression : Ends BuildError.IsProper (fun built => Agrees built.chain)
      (arguments.expression "expression") := by
    cases hbuilt : arguments.expression "expression" with
    | error e =>
        have hanswers := h.agrees hname Arguments.answers_expression
        exact .error (hanswers.of_eq_error hbuilt)
    | ok built => exact .ok (h.chain _ built hbuilt)
  refine hexpression.bind fun built hbuilt => ?_
  cases hchain : built.chain with
  | ok inner => exact .ok trivial
  | error e => exact .error (Arguments.inside_isProper (hbuilt.of_eq_error hchain))

theorem agrees_maxDepth (arguments : Arguments Built) : Agrees (maxDepth arguments) :=
  Arguments.agrees_optional (Arguments.answers_unsigned "max_depth") (by decide)

theorem asksOnly_operation (o : Operation) : AsksOnly (operation o) names :=
  fun _ _ => .ok trivial

theorem asksOnly_wrapArray : AsksOnly wrapArray names :=
  fun _ _ => .ok trivial

theorem asksOnly_query [Tools] (make : Query → Transform) (hname : "query" ∈ names) :
    AsksOnly (fun arguments => make <$> query arguments) names :=
  fun _ h => (agrees_query h hname).map make

theorem asksOnly_string (make : String → Transform) {name : String} (hname : name ∈ names) :
    AsksOnly (fun arguments => make <$> arguments.string name) names :=
  fun _ h => (h.agrees hname (Arguments.answers_string _)).map make

theorem asksOnly_each (make : Chain → Transform) (hname : "expression" ∈ names) :
    AsksOnly (fun arguments => make <$> chain arguments) names :=
  fun _ h => (agrees_chain h hname).map make

theorem asksOnly_mutate [Tools] (hquery : "query" ∈ names) (hexpression : "expression" ∈ names) :
    AsksOnly mutate names := by
  intro arguments h
  refine (h.agrees hquery (Arguments.answers_string _)).bind fun text => ?_
  refine (agrees_chain h hexpression).bind fun chain => ?_
  exact (agrees_readQuery text).bind fun query => .ok trivial

theorem asksOnly_deleteKeys [Tools] (hpattern : "pattern" ∈ names) : AsksOnly deleteKeys names := by
  intro arguments h
  refine (h.agrees hpattern (Arguments.answers_string _)).bind fun text => ?_
  exact (agrees_readPattern text).bind fun regex => .ok trivial

theorem asksOnly_sort (horder : "order" ∈ names) : AsksOnly sort names := by
  intro arguments h
  refine (h.agrees horder (Arguments.answers_string _)).bind fun text => ?_
  refine (agrees_readOrder text).bind fun order => ?_
  exact (agrees_maxDepth arguments).bind fun maxDepth => .ok trivial

theorem asksOnly_visit (make : Chain → Option Nat → Transform)
    (hexpression : "expression" ∈ names) :
    AsksOnly (fun arguments => do
      let chain ← chain arguments
      return make chain (← maxDepth arguments)) names := by
  intro arguments h
  refine (agrees_chain h hexpression).bind fun chain => ?_
  exact (agrees_maxDepth arguments).bind fun maxDepth => .ok trivial

theorem asksOnly_replaceString [Tools] (hregex : "regex" ∈ names)
    (hreplacement : "replacement" ∈ names) (hlimit : "limit" ∈ names) :
    AsksOnly replaceString names := by
  intro arguments h
  refine (h.agrees hregex (Arguments.answers_string _)).bind fun pattern => ?_
  refine (h.agrees hreplacement (Arguments.answers_string _)).bind fun replacement => ?_
  refine (h.agrees hlimit (Arguments.answers_unsigned _)).bind fun limit => ?_
  refine (agrees_readPattern pattern).bind fun regex => ?_
  exact (agrees_readReplacement regex replacement).bind fun template => .ok trivial

theorem asksOnly_insert (hkeyOrIndex : "key_or_index" ∈ names) (hvalue : "value" ∈ names) :
    AsksOnly insert names := by
  intro arguments h
  refine (h.agrees hkeyOrIndex (Arguments.answers_keyOrIndex _)).bind ?_
  rintro (key | index)
  · exact (h.agrees hvalue (Arguments.answers_value _)).bind fun v => .ok trivial
  · exact (h.agrees hvalue (Arguments.answers_value _)).bind fun v => .ok trivial

theorem nameDefect_isProper {name : String} {reason : BuildError} (h : reason.IsProper) :
    (nameDefect name reason).IsProper := by
  cases reason with
  | defect d => exact ⟨not_false, .inl trivial⟩
  | _ => exact h

theorem agrees_run [Tools] {builder : Builder}
    (hlookup : all.lookup arguments.function = some builder)
    (hbuilder : AsksOnly builder names) (h : Provides arguments names) :
    Agrees (run arguments) := by
  have hresult := hbuilder arguments h
  rw [run, hlookup]
  dsimp only
  split
  · exact .ok trivial
  · rename_i e herror
    exact .error (nameDefect_isProper (hresult.of_eq_error herror))

end Builder

/-! ### The two tables -/

theorem agrees_buildAll [Tools] {found : List Match} (h : ∀ m ∈ found, Agrees m.build) :
    Agrees (buildAll found) :=
  (buildAll_ends h).imp fun _ _ => trivial

namespace Registry

variable {registry : Registry}

open Pipeline

/-- Each definition has a builder that asks only for what the definition assures. -/
def AgreesWithBuilders [Tools] (registry : Registry) : Prop :=
  ∀ d ∈ registry, ∃ builder, Builder.all.lookup d.name = some builder ∧
    Builder.AsksOnly builder d.assured

theorem agrees_build [Tools] (hregistry : registry.AgreesWithBuilders)
    (hfallbacks : registry.HasNoFallback "expression") (call : Call) :
    ∀ m, registry.matchCall call = .ok m → Agrees m.build := by
  refine match_induction (fun call m hm ih => ?_) call
  obtain ⟨d, hd, hname, hassured⟩ := mem_keys_of_matchCall hm
  obtain ⟨builder, hlookup, hbuilder⟩ := hregistry d hd
  rw [← hname, show m.name = m.built.function from m.function_built.symm] at hlookup
  rw [m.build_eq_run]
  refine Builder.agrees_run hlookup hbuilder
    ⟨fun key hkey => ?_, fun key built hbuilt => ?_, fun v hv => ?_⟩
  · exact (m.mem_keys_built key).mpr (hassured key hkey)
  · rw [m.expression_built] at hbuilt
    obtain ⟨found, hexpression, rfl⟩ := map_eq_ok_iff.mp hbuilt
    exact agrees_buildAll (ih key found (Match.expression_mem hexpression))
  · rw [m.value_built] at hv
    have hwritable := isWritable_of_mem_bindings hfallbacks hm (Match.value_mem hv)
    exact (Value.isWritable_iff.mp hwritable).2

/-- What a registry matches whose definitions agree with the builders is never refused by a
disagreement. -/
theorem agrees_buildAll_of_parseAll [Tools] (hregistry : registry.AgreesWithBuilders)
    (hfallbacks : registry.HasNoFallback "expression") {texts : List String}
    {found : List Match} (h : registry.parseAll texts = .ok found) : Agrees (buildAll found) := by
  obtain ⟨callss, -, hmatches⟩ := parseAll_eq_ok_iff.mp h
  refine agrees_buildAll fun m hm => ?_
  obtain ⟨call, -, hcall⟩ := exists_mem_of_forall₂ hmatches hm
  exact agrees_build hregistry hfallbacks call m hcall

end Registry

namespace Builtin

theorem assured_definitions (settings : Settings) :
    (definitions settings).map (fun d => (d.name, d.assured)) =
      [("select", ["query"]), ("mutate", ["query", "expression"]), ("delete", ["query"]),
        ("remove", ["query"]), ("flatten", []), ("flatten_keys", ["prefix"]), ("expand_keys", []),
        ("remove_empty_values", []), ("deep_merge", []), ("keys", []), ("values", []),
        ("delete_keys", ["pattern"]), ("sort", ["order"]), ("arrays_to_objects", []),
        ("each_key", ["expression"]), ("each_value", ["expression"]),
        ("visit_keys", ["expression"]), ("visit_values", ["expression"]),
        ("replace_string", ["regex", "replacement", "limit"]), ("wrap_array", []),
        ("wrap_object", ["key"]), ("insert", ["key_or_index", "value"])] :=
  rfl

open Builder in
theorem definitions_agreesWithBuilders [Tools] (settings : Settings) :
    (definitions settings).AgreesWithBuilders := by
  have hall : ∀ e ∈ (definitions settings).map fun d => (d.name, d.assured),
      ∃ builder, all.lookup e.1 = some builder ∧ AsksOnly builder e.2 := by
    rw [assured_definitions]
    simp only [List.forall_mem_cons]
    exact ⟨⟨_, rfl, asksOnly_query _ (by simp)⟩, ⟨_, rfl, asksOnly_mutate (by simp) (by simp)⟩,
      ⟨_, rfl, asksOnly_query _ (by simp)⟩, ⟨_, rfl, asksOnly_query _ (by simp)⟩,
      ⟨_, rfl, asksOnly_operation _⟩, ⟨_, rfl, asksOnly_string _ (by simp)⟩,
      ⟨_, rfl, asksOnly_operation _⟩, ⟨_, rfl, asksOnly_operation _⟩,
      ⟨_, rfl, asksOnly_operation _⟩, ⟨_, rfl, asksOnly_operation _⟩,
      ⟨_, rfl, asksOnly_operation _⟩, ⟨_, rfl, asksOnly_deleteKeys (by simp)⟩,
      ⟨_, rfl, asksOnly_sort (by simp)⟩, ⟨_, rfl, asksOnly_operation _⟩,
      ⟨_, rfl, asksOnly_each _ (by simp)⟩, ⟨_, rfl, asksOnly_each _ (by simp)⟩,
      ⟨_, rfl, asksOnly_visit .visitKeys (by simp)⟩,
      ⟨_, rfl, asksOnly_visit .visitValues (by simp)⟩,
      ⟨_, rfl, asksOnly_replaceString (by simp) (by simp) (by simp)⟩,
      ⟨_, rfl, asksOnly_wrapArray⟩, ⟨_, rfl, asksOnly_string _ (by simp)⟩,
      ⟨_, rfl, asksOnly_insert (by simp) (by simp)⟩, List.forall_mem_nil _⟩
  intro d hd
  exact hall _ (List.mem_map_of_mem hd)

theorem hasNoFallback (settings : Settings) {name : String}
    (hname : name ∉ ["prefix", "order", "limit"]) :
    (definitions settings).HasNoFallback name := by
  have hall : ((definitions settings).flatMap fun d =>
      (d.parameters.filter fun p => p.fallback.isSome).map Parameter.name) =
      ["prefix", "order", "limit"] := by
    rfl
  rw [Registry.hasNoFallback_iff, hall]
  exact hname

theorem agrees_buildAll_parsed [Tools] (settings : Settings) {texts : List String}
    {found : List Match} (h : (definitions settings).parseAll texts = .ok found) :
    Agrees (buildAll found) :=
  Registry.agrees_buildAll_of_parseAll (definitions_agreesWithBuilders settings)
    (hasNoFallback settings (by decide)) h

/-- The definitions and the builders are for the same functions, and what the definitions match
is built or refused for a reason of its own: there is a builder for each call, at any depth, and
each argument that it asks for is bound. -/
theorem buildAll_parsed [Tools] (settings : Settings) :
    (definitions settings).map Definition.name = Builder.all.map Prod.fst ∧
      ∀ text found, (definitions settings).parse text = .ok found →
        ∀ e, buildAll found = .error e → ¬ e.IsDisagreement := by
  refine ⟨rfl, fun text found hparse e herror => ?_⟩
  have hparseAll : (definitions settings).parseAll [text] = .ok found := by
    rw [Registry.parseAll, hparse, Registry.parseAll]
    exact congrArg Except.ok (List.append_nil found)
  exact ((agrees_buildAll_parsed settings hparseAll).of_eq_error herror).agrees

open Pipeline in
theorem parse_eachKey_wrapObject :
    (definitions { }).parse "each_key(wrap_object(null))" =
      .ok [.mk "each_key"
        [("expression", .expression [.mk "wrap_object" [("key", .value .null)]])]] := by
  have hnull : LiteralText .value "null".toList := .word (by decide)
  have hinner := layout_literalArgument "wrap_object" (isName_cons (by decide) (by decide)) hnull
  have hargument := Layout.positional (.pipeline (.calls hinner .last) (by decide))
  have hname : IsName "each_key".toList := isName_cons (by decide) (by decide)
  have hcall := Layout.full hname isGap_nil
    (.firstArgument isGap_nil hargument (.endArguments isGap_nil))
  have hread : read "each_key(wrap_object(null))" =
      .ok [.mk "each_key"
        [.mk none (.pipeline [.mk "wrap_object" [.mk none (.literal "null")]])]] :=
    read_of_isLayout ⟨[], _, [], isGap_nil, .calls hcall .last, isGap_nil, rfl⟩
  have hdecode : decode "null" = .ok .null := 
    decode_write .null (show Json.write .null .compact = .ok "null" from rfl)
  refine Registry.parse_eq_ok_iff.mpr ⟨_, hread, ?_⟩
  simp only [Registry.matchCalls, Registry.matchCall, Registry.bindArguments, Registry.resolve,
    hdecode]
  rfl

theorem buildAll_eachKey_wrapObject :
    ∃ found, (definitions { }).parse "each_key(wrap_object(null))" = .ok found ∧
      @buildAll .ofPaths found =
        .error (.within "each_key" "expression" (.notOfKind "wrap_object" "key" "string" .null)) ∧
      ¬ (BuildError.within "each_key" "expression"
        (.notOfKind "wrap_object" "key" "string" .null)).IsDisagreement := by
  have hbuild : @buildAll .ofPaths [.mk "each_key"
      [("expression", .expression [.mk "wrap_object" [("key", .value .null)]])]] =
      .error (.within "each_key" "expression" (.notOfKind "wrap_object" "key" "string" .null)) := by
    simp only [buildAll, Match.build, builtBindings, builtBinding]
    rfl
  exact ⟨_, parse_eachKey_wrapObject, hbuild,
    (@buildAll_parsed .ofPaths { }).2 _ _ parse_eachKey_wrapObject _ hbuild⟩

end Builtin

end Reshape
