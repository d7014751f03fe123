import Reshape.Proofs.Pattern.Failure
import Reshape.Proofs.Transform.Arguments
import Reshape.Transform.Build

namespace Reshape

open Pattern (Regex Template)

namespace Builder

variable {arguments : Arguments Built} {e : Pattern.Error}

theorem refuse_eq_exceptional_iff {defect : Pattern.Error → Defect} {first : Pattern.Error} :
    refuse defect first = .exceptional e ↔ first = e ∧ e.IsExceptional := by
  have hreported : first.typeName = "error" → ¬ (first = e ∧ e.IsExceptional) := by
    rintro hname ⟨rfl, he⟩
    exact he hname
  have hexceptional : first.typeName ≠ "error" → (first = e ↔ first = e ∧ e.IsExceptional) := by
    refine fun hname => (and_iff_left_of_imp ?_).symm
    rintro rfl
    exact hname
  cases first with
  | malformed => exact iff_of_false nofun (hreported rfl)
  | unusable => exact iff_of_false nofun (hreported rfl)
  | _ =>
      rw [refuse, BuildError.exceptional.injEq]
      exact hexceptional (by simp [Pattern.Error.typeName])

theorem readPattern_eq_exceptional_iff [Tools] {text : String} :
    readPattern text = .error (.exceptional e) ↔
      Regex.read Tools.charNamed? text = .error e ∧ e.IsExceptional := by
  rw [readPattern]
  split
  · rename_i regex hread
    simp [hread]
  · rename_i first hread
    simp [hread, refuse_eq_exceptional_iff]

theorem readReplacement_eq_exceptional_iff {regex : Regex} {text : String} :
    readReplacement regex text = .error (.exceptional e) ↔
      Template.read regex text = .error e ∧ e.IsExceptional := by
  rw [readReplacement]
  split
  · rename_i template hread
    simp [hread]
  · rename_i first hread
    simp [hread, refuse_eq_exceptional_iff]

@[simp]
theorem readQuery_ne_exceptional [Tools] (text : String) :
    readQuery text ≠ .error (.exceptional e) := by
  unfold readQuery
  split <;> simp

@[simp]
theorem readOrder_ne_exceptional (text : String) :
    readOrder text ≠ .error (.exceptional e) := by
  unfold readOrder
  split <;> simp

@[simp]
theorem query_ne_exceptional [Tools] : query arguments ≠ .error (.exceptional e) := by
  simp [query, bind_eq_error_iff]

@[simp]
theorem maxDepth_ne_exceptional : maxDepth arguments ≠ .error (.exceptional e) := by
  unfold maxDepth Arguments.optional
  split
  · intro h
    exact arguments.unsigned_ne_exceptional _ (map_eq_error_iff.mp h)
  · simp

theorem inside_eq_exceptional_iff {name : String} {reason : BuildError} :
    arguments.inside name reason = .exceptional e ↔
      reason = .exceptional e ∧ e.isOfValue = false := by
  unfold Arguments.inside
  split
  · rename_i first
    split
    · rename_i hvalue
      refine iff_of_false nofun ?_
      rintro ⟨⟨⟩, he⟩
      rw [hvalue] at he
      cases he
    · rename_i hvalue
      rw [BuildError.exceptional.injEq]
      refine (and_iff_left_of_imp ?_).symm
      rintro rfl
      exact Bool.not_eq_true _ ▸ hvalue
  · rename_i hother
    refine iff_of_false nofun ?_
    rintro ⟨rfl, -⟩
    exact hother e rfl

theorem chain_eq_exceptional_iff :
    chain arguments = .error (.exceptional e) ↔
      ∃ inner, arguments.expression "expression" = .ok inner ∧
        inner.chain = .error (.exceptional e) ∧ e.isOfValue = false := by
  rw [chain, bind_eq_error_iff]
  simp only [Arguments.expression_ne_exceptional, false_or]
  refine exists_congr fun inner => and_congr_right fun hexpression => ?_
  split
  · rename_i hchain
    simp [hchain, pure, Except.pure]
  · rename_i hchain
    simp [hchain, throw, throwThe, MonadExceptOf.throw, inside_eq_exceptional_iff]

/-- A builder that never leaks, whatever its arguments are. -/
def IsTight (builder : Builder) : Prop :=
  ∀ arguments e, builder arguments ≠ .error (.exceptional e)

theorem insert_isTight : IsTight insert := by
  intro arguments e
  simp only [insert, ne_eq, bind_eq_error_iff, Arguments.keyOrIndex_ne_exceptional,
    false_or, not_exists, not_and]
  rintro (key | index) -
  · simp [bind_eq_error_iff, pure, Except.pure]
  · simp [bind_eq_error_iff, pure, Except.pure]

theorem sort_isTight : IsTight sort := by
  intro arguments e
  simp [sort, bind_eq_error_iff, pure, Except.pure]

/-- The builders that can leak. -/
def loose [Tools] : List (String × Builder) :=
  [("mutate", mutate), ("delete_keys", deleteKeys), ("each_key", eachKey),
    ("each_value", eachValue), ("visit_keys", visitKeys), ("visit_values", visitValues),
    ("replace_string", replaceString)]

theorem isTight_or_mem_loose [Tools] : ∀ entry ∈ all, IsTight entry.2 ∨ entry ∈ loose := by
  have hoperation : ∀ o, IsTight (operation o) := by
    intro o arguments e
    simp [operation]
  have hmap : ∀ {α : Type} {get : Arguments Built → Except BuildError α} (make : α → Transform),
      (∀ arguments e, get arguments ≠ .error (.exceptional e)) →
        IsTight fun arguments => make <$> get arguments := by
    intro α get make hget arguments e
    rw [ne_eq, map_eq_error_iff]
    exact hget arguments e
  have hquery : ∀ make, IsTight fun arguments => make <$> query arguments :=
    fun make => hmap make fun arguments e => query_ne_exceptional
  have hstring : ∀ name make, IsTight fun arguments => make <$> arguments.string name :=
    fun name make => hmap make fun arguments e => arguments.string_ne_exceptional name
  simp only [all, List.forall_mem_cons]
  exact ⟨.inl (hquery _), .inr (by simp [loose]), .inl (hquery _), .inl (hquery _),
    .inl (hoperation _), .inl (hstring _ _), .inl (hoperation _), .inl (hoperation _),
    .inl (hoperation _), .inl (hoperation _), .inl (hoperation _), .inr (by simp [loose]),
    .inl sort_isTight, .inl (hoperation _), .inr (by simp [loose]), .inr (by simp [loose]),
    .inr (by simp [loose]), .inr (by simp [loose]), .inr (by simp [loose]),
    .inl (fun _ _ => by simp [wrapArray]), .inl (hstring _ _), .inl insert_isTight,
    nofun⟩

theorem mutate_eq_exceptional_iff [Tools] :
    mutate arguments = .error (.exceptional e) ↔
      ∃ text, arguments.string "query" = .ok text ∧ chain arguments = .error (.exceptional e) := by
  simp [mutate, bind_eq_error_iff, pure, Except.pure]

theorem deleteKeys_eq_exceptional_iff [Tools] :
    deleteKeys arguments = .error (.exceptional e) ↔
      ∃ pattern, arguments.string "pattern" = .ok pattern ∧
        readPattern pattern = .error (.exceptional e) := by
  simp [deleteKeys, bind_eq_error_iff, pure, Except.pure]

theorem replaceString_eq_exceptional_iff [Tools] :
    replaceString arguments = .error (.exceptional e) ↔
      ∃ pattern, arguments.string "regex" = .ok pattern ∧
        ∃ replacement, arguments.string "replacement" = .ok replacement ∧
          ∃ limit, arguments.unsigned "limit" = .ok limit ∧
            (readPattern pattern = .error (.exceptional e) ∨
              ∃ regex, readPattern pattern = .ok regex ∧
                readReplacement regex replacement = .error (.exceptional e)) := by
  simp [replaceString, bind_eq_error_iff, pure, Except.pure]

theorem visitKeys_eq_exceptional_iff :
    visitKeys arguments = .error (.exceptional e) ↔
      chain arguments = .error (.exceptional e) := by
  simp [visitKeys, bind_eq_error_iff, pure, Except.pure]

theorem visitValues_eq_exceptional_iff :
    visitValues arguments = .error (.exceptional e) ↔
      chain arguments = .error (.exceptional e) := by
  simp [visitValues, bind_eq_error_iff, pure, Except.pure]

theorem readPattern_eq_ok_iff [Tools] {text : String} {regex : Regex} :
    readPattern text = .ok regex ↔ Regex.read Tools.charNamed? text = .ok regex := by
  rw [readPattern]
  split
  · rename_i hread
    simp [hread]
  · rename_i hread
    simp [hread]

theorem nameDefect_eq_exceptional_iff {name : String} {reason : BuildError} :
    nameDefect name reason = .exceptional e ↔ reason = .exceptional e := by
  cases reason <;> simp [nameDefect]

theorem run_eq_exceptional_iff_of_lookup [Tools] (builder : Builder)
    (h : all.lookup arguments.function = some builder) :
    run arguments = .error (.exceptional e) ↔ builder arguments = .error (.exceptional e) := by
  simp only [run, h]
  cases builder arguments with
  | ok t => simp
  | error reason => simp [nameDefect_eq_exceptional_iff]

theorem leaks_of_deleteKeys [Tools] (hfunction : arguments.function = "delete_keys")
    (h : deleteKeys arguments = .error (.exceptional e)) : arguments.Leaks e := by
  obtain ⟨pattern, hpattern, herror⟩ := deleteKeys_eq_exceptional_iff.mp h
  obtain ⟨hread, he⟩ := readPattern_eq_exceptional_iff.mp herror
  exact .keyPattern hfunction hpattern hread he

theorem leaks_of_replaceString [Tools] (hfunction : arguments.function = "replace_string")
    (h : replaceString arguments = .error (.exceptional e)) : arguments.Leaks e := by
  obtain ⟨pattern, hpattern, replacement, hreplacement, limit, hlimit, herror⟩ :=
    replaceString_eq_exceptional_iff.mp h
  rcases herror with herror | ⟨regex, hregex, herror⟩
  · obtain ⟨hread, he⟩ := readPattern_eq_exceptional_iff.mp herror
    exact .searchPattern hfunction hpattern hreplacement hlimit hread he
  · obtain ⟨hread, he⟩ := readReplacement_eq_exceptional_iff.mp herror
    exact .replacement hfunction hpattern hreplacement hlimit
      (readPattern_eq_ok_iff.mp hregex) hread he

theorem leaks_or_takes_of_run [Tools] (h : run arguments = .error (.exceptional e)) :
    arguments.Leaks e ∨ ∃ inner, arguments.Takes inner ∧
      inner.chain = .error (.exceptional e) ∧ e.isOfValue = false := by
  cases hlookup : all.lookup arguments.function with
  | none =>
    rw [run, hlookup] at h
    cases h
  | some builder =>
    rw [run_eq_exceptional_iff_of_lookup builder hlookup] at h
    obtain ⟨before, after, hall, -⟩ := List.lookup_eq_some_iff.mp hlookup
    have hmem : (arguments.function, builder) ∈ all := by
      rw [hall]
      exact List.mem_append_right before List.mem_cons_self
    -- Left are the builders that read a pattern or pass on the error of an expression.
    have hloose := (isTight_or_mem_loose _ hmem).resolve_left fun htight => htight _ _ h
    have heach (hfunction : arguments.function ∈ Arguments.chainFunctions)
        (hchain : chain arguments = .error (.exceptional e)) :
        ∃ inner, arguments.Takes inner ∧
          inner.chain = .error (.exceptional e) ∧ e.isOfValue = false := by
      obtain ⟨inner, hexpression, hinner⟩ := chain_eq_exceptional_iff.mp hchain
      exact ⟨inner, .each hfunction hexpression, hinner⟩
    simp only [loose, List.mem_cons, Prod.mk.injEq, List.not_mem_nil, or_false] at hloose
    rcases hloose with ⟨hf, rfl⟩ | ⟨hf, rfl⟩ | ⟨hf, rfl⟩ | ⟨hf, rfl⟩ | ⟨hf, rfl⟩ | ⟨hf, rfl⟩ |
      ⟨hf, rfl⟩
    · obtain ⟨query, hquery, hchain⟩ := mutate_eq_exceptional_iff.mp h
      obtain ⟨inner, hexpression, hinner⟩ := chain_eq_exceptional_iff.mp hchain
      exact .inr ⟨inner, .mutate hf hquery hexpression, hinner⟩
    · exact .inl (leaks_of_deleteKeys hf h)
    · exact .inr (heach (by simp [hf, Arguments.chainFunctions]) (map_eq_error_iff.mp h))
    · exact .inr (heach (by simp [hf, Arguments.chainFunctions]) (map_eq_error_iff.mp h))
    · exact .inr (heach (by simp [hf, Arguments.chainFunctions])
        (visitKeys_eq_exceptional_iff.mp h))
    · exact .inr (heach (by simp [hf, Arguments.chainFunctions])
        (visitValues_eq_exceptional_iff.mp h))
    · exact .inl (leaks_of_replaceString hf h)

theorem run_of_leaks [Tools] (h : arguments.Leaks e) : run arguments = .error (.exceptional e) := by
  cases h with
  | keyPattern hfunction hpattern hread he =>
    rw [run_eq_exceptional_iff_of_lookup deleteKeys (by rw [hfunction]; rfl),
      deleteKeys_eq_exceptional_iff]
    exact ⟨_, hpattern, readPattern_eq_exceptional_iff.mpr ⟨hread, he⟩⟩
  | searchPattern hfunction hpattern hreplacement hlimit hread he =>
    rw [run_eq_exceptional_iff_of_lookup replaceString (by rw [hfunction]; rfl),
      replaceString_eq_exceptional_iff]
    have herror := readPattern_eq_exceptional_iff.mpr ⟨hread, he⟩
    exact ⟨_, hpattern, _, hreplacement, _, hlimit, .inl herror⟩
  | replacement hfunction hpattern hreplacement hlimit hregex hread he =>
    rw [run_eq_exceptional_iff_of_lookup replaceString (by rw [hfunction]; rfl),
      replaceString_eq_exceptional_iff]
    have herror := readReplacement_eq_exceptional_iff.mpr ⟨hread, he⟩
    exact ⟨_, hpattern, _, hreplacement, _, hlimit,
      .inr ⟨_, readPattern_eq_ok_iff.mpr hregex, herror⟩⟩

theorem run_of_takes [Tools] {inner : Built} (h : arguments.Takes inner)
    (hinner : inner.chain = .error (.exceptional e)) (he : e.isOfValue = false) :
    run arguments = .error (.exceptional e) := by
  cases h with
  | each hfunction hexpression =>
    have hchain := chain_eq_exceptional_iff.mpr ⟨inner, hexpression, hinner, he⟩
    simp only [Arguments.chainFunctions, List.mem_cons, List.not_mem_nil, or_false] at hfunction
    rcases hfunction with hf | hf | hf | hf
    · rw [run_eq_exceptional_iff_of_lookup eachKey (by rw [hf]; rfl)]
      exact map_eq_error_iff.mpr hchain
    · rw [run_eq_exceptional_iff_of_lookup eachValue (by rw [hf]; rfl)]
      exact map_eq_error_iff.mpr hchain
    · rw [run_eq_exceptional_iff_of_lookup visitKeys (by rw [hf]; rfl)]
      exact visitKeys_eq_exceptional_iff.mpr hchain
    · rw [run_eq_exceptional_iff_of_lookup visitValues (by rw [hf]; rfl)]
      exact visitValues_eq_exceptional_iff.mpr hchain
  | mutate hfunction hquery hexpression =>
    rw [run_eq_exceptional_iff_of_lookup mutate (by rw [hfunction]; rfl),
      mutate_eq_exceptional_iff]
    exact ⟨_, hquery, chain_eq_exceptional_iff.mpr ⟨inner, hexpression, hinner, he⟩⟩

end Builder

end Reshape
