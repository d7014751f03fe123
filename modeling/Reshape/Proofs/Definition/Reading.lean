import Reshape.Proofs.Definition.Bindings

namespace Reshape

open Pipeline

namespace Definition

/-! ### Definitions as they are built -/

/-- A definition that starts with its name and gets all else by additions. -/
inductive IsBuilt : Definition → Prop
  | ofName (name : String) : IsBuilt (ofName name)
  | addAlias {d : Definition} (h : IsBuilt d) (other : String) : IsBuilt (d.addAlias other)
  | withDescription {d : Definition} (h : IsBuilt d) (description : String) :
      IsBuilt (d.withDescription description)
  | addParameter {d : Definition} (h : IsBuilt d) (p : Parameter) : IsBuilt (d.addParameter p)

variable {d : Definition}

theorem nodup_names_addParameter (h : (d.parameters.map Parameter.name).Nodup) (p : Parameter) :
    ((d.addParameter p).parameters.map Parameter.name).Nodup := by
  have hperm : (d.addParameter p).parameters.Perm
      (d.parameters.filter (fun q => q.name != p.name) ++ [p]) := Sorting.arrange_perm _ _
  rw [(hperm.map Parameter.name).nodup_iff, List.map_append, List.nodup_append]
  refine ⟨h.sublist (List.filter_sublist.map Parameter.name), List.nodup_singleton _, ?_⟩
  intro key hkey other hother
  obtain ⟨q, hq, rfl⟩ := List.mem_map.mp hkey
  rw [List.mem_singleton.mp hother]
  simpa using (List.mem_filter.mp hq).2

theorem IsBuilt.nodup_names (h : d.IsBuilt) : (d.parameters.map Parameter.name).Nodup := by
  induction h with
  | ofName name => exact List.nodup_nil
  | addAlias _ other ih => exact ih
  | withDescription _ description ih => exact ih
  | addParameter _ p ih => exact nodup_names_addParameter ih p

theorem table_eq_parameters (h : (d.parameters.map Parameter.name).Nodup) :
    d.table = d.parameters := by
  have hkeys : (Entries.keys (d.parameters.map fun p => (p.name, p))).Nodup := by
    rwa [Entries.keys, List.map_map]
  rw [table, Entries.ofList_eq_self hkeys, List.map_map]
  exact List.map_id _

/-! ### Readings -/

/-- The parameter that an argument with or without a label means, where those of some names are
bound: the one with the label, or else the first one that is not bound. -/
def meaning? (d : Definition) (bound : List String) : Option String → Option Parameter
  | some label => d.parameters.find? fun p => p.name == label
  | none => d.parameters.find? fun p => !bound.contains p.name

/-- Arguments read from left to right: each one means a parameter that is not bound before. -/
inductive Reads (d : Definition) : List String → List Argument → List Parameter → Prop
  | nil (bound : List String) : Reads d bound [] []
  | cons {bound : List String} {label : Option String} {p : Parameter} {arguments : List Argument}
      {meant : List Parameter} (hmeant : d.meaning? bound label = some p)
      (hfresh : p.name ∉ bound) (hrest : Reads d (bound ++ [p.name]) arguments meant)
      (term : Term) : Reads d bound (.mk label term :: arguments) (p :: meant)

/-- Why an argument means no parameter that is not bound before. -/
inductive Refuses (d : Definition) (bound : List String) : Argument → MatchError → Prop
  | duplicate {label : String} (h : label ∈ bound) (term : Term) :
      Refuses d bound (.mk (some label) term) (.duplicateArgument d.name label)
  | unknown {label : String} (hbound : label ∉ bound)
      (h : label ∉ d.parameters.map Parameter.name) (term : Term) :
      Refuses d bound (.mk (some label) term)
        (.unexpectedNamed d.name label (Argument.mk (some label) term).text)
  | surplus (h : ∀ p ∈ d.parameters, p.name ∈ bound) (term : Term) :
      Refuses d bound (.mk none term) (.unexpectedPositional d.name term.text)

/-- A reading comes to an argument that is refused. -/
inductive Stops (d : Definition) : List String → List Argument → MatchError → Prop
  | here {bound : List String} {argument : Argument} {reason : MatchError}
      (h : d.Refuses bound argument reason) (arguments : List Argument) :
      Stops d bound (argument :: arguments) reason
  | later {bound : List String} {label : Option String} {p : Parameter}
      {arguments : List Argument} {reason : MatchError} (hmeant : d.meaning? bound label = some p)
      (hfresh : p.name ∉ bound) (hrest : Stops d (bound ++ [p.name]) arguments reason)
      (term : Term) : Stops d bound (.mk label term :: arguments) reason

/-- The names of the required parameters without a fallback that are not among those meant. -/
def lacking (d : Definition) (meant : List Parameter) : List String :=
  (d.parameters.filter fun p => p.required && p.fallback.isNone &&
    !(meant.map Parameter.name).contains p.name).map Parameter.name

/-- What is wrong with the arguments of a call: one of them is refused, or all of them are read
and required parameters are left. -/
inductive IsFaulty (d : Definition) (arguments : List Argument) : MatchError → Prop
  | stops {reason : MatchError} (h : d.Stops [] arguments reason) : IsFaulty d arguments reason
  | missing {meant : List Parameter} {first : String} {more : List String}
      (hreads : d.Reads [] arguments meant) (h : d.lacking meant = first :: more) :
      IsFaulty d arguments (.missing d.name first more)

/-- The match of a call whose arguments mean some parameters. Each argument gives the binding of
the parameter that it means, and each parameter with a fallback that none of them means is bound
to its fallback. -/
inductive IsMatch (d : Definition) (registry : Registry) (arguments : List Argument)
    (meant : List Parameter) : Match → Prop
  | mk {given filled : Entries (Binding (List Match))}
      (hkeys : Entries.keys given = meant.map Parameter.name)
      (hgiven : List.Forall₂ (fun argument entry => registry.Denotes argument.term entry.2)
        arguments given)
      (hfilled : ∀ entry, entry ∈ filled ↔ ∃ p ∈ d.parameters, p ∉ meant ∧
        ∃ v, p.fallback = some v ∧ entry = (p.name, .value v))
      (hdistinct : (Entries.keys (given ++ filled)).Nodup)
      (habsent : ∀ p ∈ d.parameters, p ∉ meant → p.fallback = none →
        p.name ∉ Entries.keys (given ++ filled)) :
      IsMatch d registry arguments meant (.mk d.name (given ++ filled))

theorem refuses_or_meaning (d : Definition) (bound : List String) (label : Option String)
    (term : Term) : (∃ reason, d.Refuses bound (.mk label term) reason) ∨
      ∃ p, d.meaning? bound label = some p ∧ p.name ∉ bound := by
  cases hmeant : d.meaning? bound label with
  | some p =>
      by_cases hbound : p.name ∈ bound
      · cases label with
        | none => simpa [hbound] using List.find?_some hmeant
        | some label =>
            have hname : p.name = label := by simpa using List.find?_some hmeant
            exact .inl ⟨_, .duplicate (hname ▸ hbound) term⟩
      · exact .inr ⟨p, rfl, hbound⟩
  | none =>
      cases label with
      | none =>
          rw [meaning?, List.find?_eq_none] at hmeant
          exact .inl ⟨_, .surplus (by simpa using hmeant) term⟩
      | some label =>
          rw [meaning?, List.find?_eq_none] at hmeant
          have hlabel : label ∉ d.parameters.map Parameter.name := by simpa using hmeant
          by_cases hbound : label ∈ bound
          · exact .inl ⟨_, .duplicate hbound term⟩
          · exact .inl ⟨_, .unknown hbound hlabel term⟩

theorem reads_or_stops (d : Definition) (bound : List String) (arguments : List Argument) :
    (∃ meant, d.Reads bound arguments meant) ∨ ∃ reason, d.Stops bound arguments reason := by
  induction arguments generalizing bound with
  | nil => exact .inl ⟨[], .nil bound⟩
  | cons argument arguments ih =>
      obtain ⟨label, term⟩ := argument
      rcases d.refuses_or_meaning bound label term with ⟨reason, h⟩ | ⟨p, hmeant, hfresh⟩
      · exact .inr ⟨reason, .here h arguments⟩
      · rcases ih (bound ++ [p.name]) with ⟨meant, hrest⟩ | ⟨reason, hrest⟩
        · exact .inl ⟨p :: meant, .cons hmeant hfresh hrest term⟩
        · exact .inr ⟨reason, .later hmeant hfresh hrest term⟩

theorem mem_of_meaning? {bound : List String} {label : Option String} {p : Parameter}
    (h : d.meaning? bound label = some p) : p ∈ d.parameters := by
  cases label <;> exact List.mem_of_find?_eq_some h

theorem Reads.mem_parameters {bound : List String} {arguments : List Argument}
    {meant : List Parameter} (h : d.Reads bound arguments meant) :
    ∀ p ∈ meant, p ∈ d.parameters := by
  induction h with
  | nil bound => nofun
  | cons hmeant _ _ _ ih => exact List.forall_mem_cons.mpr ⟨mem_of_meaning? hmeant, ih⟩

theorem Reads.nodup_names {bound : List String} {arguments : List Argument}
    {meant : List Parameter} (h : d.Reads bound arguments meant) :
    (meant.map Parameter.name).Nodup ∧ ∀ p ∈ meant, p.name ∉ bound := by
  induction h with
  | nil bound => exact ⟨List.nodup_nil, nofun⟩
  | @cons bound label p arguments meant hmeant hfresh hrest term ih =>
      obtain ⟨hnodup, hnew⟩ := ih
      simp only [List.mem_append, not_or, List.mem_singleton] at hnew
      rw [List.map_cons, List.nodup_cons, List.forall_mem_cons]
      refine ⟨⟨fun hmem => ?_, hnodup⟩, hfresh, fun q hq => (hnew q hq).1⟩
      obtain ⟨q, hq, hname⟩ := List.mem_map.mp hmem
      exact (hnew q hq).2 hname

end Definition

namespace Registry

variable {registry : Registry} {d : Definition} {done given : Entries (Binding (List Match))}
  {arguments : List Argument} {meant : List Parameter} {reason : MatchError}

/-! ### One argument -/

theorem find?_unbound {keys : List String} {label : String} (h : label ∉ keys) :
    (unbound d.parameters keys).find? (fun p => p.name == label) =
      d.parameters.find? fun p => p.name == label := by
  rw [unbound, List.find?_filter]
  refine congrArg (d.parameters.find? ·) (funext fun p => ?_)
  by_cases hname : p.name = label <;> simp [hname, h]

theorem choose_of_meaning? {label : Option String} {p : Parameter}
    (hmeant : d.meaning? (Entries.keys done) label = some p) (hfresh : p.name ∉ Entries.keys done)
    (term : Term) :
    choose d.name (unbound d.parameters (Entries.keys done)) done label term = .ok p := by
  cases label with
  | none =>
      rw [Definition.meaning?, ← List.head?_filter] at hmeant
      obtain ⟨rest, hrest⟩ := List.head?_eq_some_iff.mp hmeant
      rw [unbound, hrest]
      rfl
  | some label =>
      have hname : p.name = label := by simpa using List.find?_some hmeant
      rw [hname] at hfresh
      have hcontains : Entries.contains done label = false := by
        rwa [← Bool.not_eq_true, Entries.contains_iff]
      rw [choose, hcontains, find?_unbound hfresh, show d.parameters.find? _ = some p from hmeant]
      rfl

theorem choose_of_refuses {label : Option String} {term : Term}
    (h : d.Refuses (Entries.keys done) (.mk label term) reason) :
    choose d.name (unbound d.parameters (Entries.keys done)) done label term = .error reason := by
  cases h with
  | duplicate h =>
      rw [choose, Entries.contains_iff.mpr h]
      rfl
  | @unknown label hbound h =>
      have hcontains : Entries.contains done label = false := by
        rwa [← Bool.not_eq_true, Entries.contains_iff]
      have hfind : d.parameters.find? (fun p => p.name == label) = none := by
        rw [List.find?_eq_none]
        simpa using h
      rw [choose, hcontains, find?_unbound hbound, hfind]
      rfl
  | surplus h =>
      have hnil : unbound d.parameters (Entries.keys done) = [] := by
        rw [unbound, List.filter_eq_nil_iff]
        simpa using h
      rw [hnil]
      rfl

/-! ### All arguments -/

theorem exists_given {bound : List String} (hreads : d.Reads bound arguments meant)
    (hterms : ∀ argument ∈ arguments, ∃ binding, registry.Denotes argument.term binding) :
    ∃ given : Entries (Binding (List Match)), Entries.keys given = meant.map Parameter.name ∧
      List.Forall₂ (fun argument entry => registry.Denotes argument.term entry.2) arguments
        given := by
  induction hreads with
  | nil bound => exact ⟨[], rfl, .nil⟩
  | @cons bound label p arguments meant _ _ _ term ih =>
      obtain ⟨⟨binding, hbinding⟩, hrest⟩ := List.forall_mem_cons.mp hterms
      obtain ⟨given, hkeys, hgiven⟩ := ih hrest
      refine ⟨(p.name, binding) :: given, ?_, .cons hbinding hgiven⟩
      rw [Entries.keys_cons, hkeys, List.map_cons]

theorem bindArguments_cons (argument : Argument) {p : Parameter} {binding : Binding (List Match)}
    (hmeant : d.meaning? (Entries.keys done) argument.label = some p)
    (hfresh : p.name ∉ Entries.keys done) (hterm : registry.Denotes argument.term binding)
    (arguments : List Argument) :
    registry.bindArguments d.name (unbound d.parameters (Entries.keys done)) done
        (argument :: arguments) =
      registry.bindArguments d.name
        (unbound d.parameters (Entries.keys (done ++ [(p.name, binding)])))
        (done ++ [(p.name, binding)]) arguments := by
  obtain ⟨label, term⟩ := argument
  rw [Argument.label] at hmeant
  rw [bindArguments, choose_of_meaning? hmeant hfresh]
  dsimp only
  rw [show registry.resolve d.name p.name term = .ok binding from hterm _ _]
  dsimp only
  rw [Entries.keys_append, unbound_append, ← unbound_singleton]
  rfl

/-- While the arguments are read the parameters that are left are those that are not bound. -/
theorem bindArguments_of_reads (done : Entries (Binding (List Match)))
    (hreads : d.Reads (Entries.keys done) arguments meant)
    (hkeys : Entries.keys given = meant.map Parameter.name)
    (hgiven : List.Forall₂ (fun argument entry => registry.Denotes argument.term entry.2)
      arguments given) :
    registry.bindArguments d.name (unbound d.parameters (Entries.keys done)) done arguments =
      complete d.name (unbound d.parameters (Entries.keys (done ++ given))) (done ++ given) := by
  induction hgiven generalizing done meant with
  | nil => rw [bindArguments, List.append_nil]
  | @cons argument entry arguments given hterm hgiven ih =>
      cases hreads with
      | @cons bound label p arguments meant hmeant hfresh hrest term =>
          obtain ⟨key, binding⟩ := entry
          obtain ⟨rfl, hrestKeys⟩ := List.cons_eq_cons.mp hkeys
          rw [bindArguments_cons (.mk label term) hmeant hfresh hterm,
            ih _ (by rwa [Entries.keys_append]) hrestKeys, List.append_assoc,
            List.singleton_append]

theorem bindArguments_of_stops (done : Entries (Binding (List Match)))
    (hterms : ∀ argument ∈ arguments, ∃ binding, registry.Denotes argument.term binding)
    (hstops : d.Stops (Entries.keys done) arguments reason) :
    registry.bindArguments d.name (unbound d.parameters (Entries.keys done)) done arguments =
      .error reason := by
  induction arguments generalizing done with
  | nil => cases hstops
  | cons argument arguments ih =>
      obtain ⟨⟨binding, hbinding⟩, hrestTerms⟩ := List.forall_mem_cons.mp hterms
      cases hstops with
      | here h =>
          obtain ⟨label, term⟩ := argument
          rw [bindArguments, choose_of_refuses h]
      | @later bound label p _ _ hmeant hfresh hrest term =>
          rw [bindArguments_cons (.mk label term) hmeant hfresh hbinding,
            ih _ hrestTerms (by rwa [Entries.keys_append])]

end Registry

namespace Definition

/-! ### Calls of a definition -/

/-- Matches a call against one definition, whatever its name. -/
def matchSignature (d : Definition) (registry : Registry) (call : Call) :
    Except MatchError Match :=
  match registry.bindArguments d.name d.table [] call.arguments with
  | .ok bindings => .ok (.mk d.name bindings)
  | .error reason => .error (.invalidSignature call.text reason)

theorem matchCall_eq_matchSignature {registry : Registry} {d : Definition} {call : Call}
    (h : registry.find? call.name = some d) :
    registry.matchCall call = d.matchSignature registry call := by
  obtain ⟨name, arguments⟩ := call
  rw [Registry.matchCall, show registry.find? name = some d from h]
  rfl

section Signature

variable {registry : Registry} {d : Definition} {call : Call} {meant : List Parameter}
  {given : Entries (Binding (List Match))} {reason : MatchError}

theorem mem_unbound_iff (hnames : (d.parameters.map Parameter.name).Nodup)
    (hmeant : ∀ p ∈ meant, p ∈ d.parameters) {p : Parameter} :
    p ∈ Registry.unbound d.parameters (meant.map Parameter.name) ↔
      p ∈ d.parameters ∧ p ∉ meant := by
  rw [Registry.mem_unbound]
  refine and_congr_right fun hp => not_congr ⟨fun hmem => ?_, List.mem_map_of_mem⟩
  obtain ⟨q, hq, hname⟩ := List.mem_map.mp hmem
  rwa [← List.inj_on_of_nodup_map hnames (hmeant q hq) hp hname]

theorem missing_unbound (d : Definition) (meant : List Parameter) :
    Registry.missing (Registry.unbound d.parameters (meant.map Parameter.name)) =
      d.lacking meant := by
  rw [Registry.missing, Registry.unbound, List.filter_filter, lacking]
  refine congrArg (List.map Parameter.name) (List.filter_congr fun p _ => ?_)
  rw [Bool.and_comm p.required]

theorem lacking_eq_nil_iff (hnames : (d.parameters.map Parameter.name).Nodup)
    (hmeant : ∀ p ∈ meant, p ∈ d.parameters) :
    d.lacking meant = [] ↔
      ∀ p ∈ d.parameters, p.required = true → p.fallback = none → p ∈ meant := by
  rw [← missing_unbound, Registry.missing_eq_nil_iff]
  constructor
  · intro h p hp hrequired hfallback
    by_contra hmem
    have hsome := h p ((mem_unbound_iff hnames hmeant).mpr ⟨hp, hmem⟩) hrequired
    rw [hfallback] at hsome
    cases hsome
  · intro h p hp hrequired
    obtain ⟨hp, hmem⟩ := (mem_unbound_iff hnames hmeant).mp hp
    rw [← Option.ne_none_iff_isSome]
    exact fun hfallback => hmem (h p hp hrequired hfallback)

theorem isMatch_of_reads (hnames : (d.parameters.map Parameter.name).Nodup)
    (hreads : d.Reads [] call.arguments meant)
    (hkeys : Entries.keys given = meant.map Parameter.name)
    (hgiven : List.Forall₂ (fun argument entry => registry.Denotes argument.term entry.2)
      call.arguments given) :
    d.IsMatch registry call.arguments meant
      (.mk d.name (given ++ Registry.fallbacks (Registry.unbound d.parameters
        (meant.map Parameter.name)))) := by
  have hmeant := hreads.mem_parameters
  have hfilled : ∀ entry, entry ∈ Registry.fallbacks (Registry.unbound d.parameters
      (meant.map Parameter.name)) ↔ ∃ p ∈ d.parameters, p ∉ meant ∧
        ∃ v, p.fallback = some v ∧ entry = (p.name, .value v) := by
    intro entry
    rw [Registry.fallbacks, List.mem_filterMap]
    constructor
    · rintro ⟨p, hp, hfallback⟩
      obtain ⟨hp, hmem⟩ := (mem_unbound_iff hnames hmeant).mp hp
      obtain ⟨v, hv, rfl⟩ := Option.map_eq_some_iff.mp hfallback
      exact ⟨p, hp, hmem, v, hv, rfl⟩
    · rintro ⟨p, hp, hmem, v, hv, rfl⟩
      exact ⟨p, (mem_unbound_iff hnames hmeant).mpr ⟨hp, hmem⟩, by rw [hv, Option.map_some]⟩
  refine .mk hkeys hgiven hfilled ?_ fun p hp hmem hfallback hbound => ?_
  · rw [Entries.keys_append, ← hkeys]
    exact Registry.nodup_keys_bindings hnames (hkeys ▸ hreads.nodup_names.1)
  · -- A parameter without a fallback is bound by no other one, since its name is its own.
    rw [Entries.keys_append, hkeys, List.mem_append] at hbound
    rcases hbound with hbound | hbound
    · exact (Registry.mem_unbound.mp ((mem_unbound_iff hnames hmeant).mpr ⟨hp, hmem⟩)).2 hbound
    · obtain ⟨entry, hentry, hname⟩ := List.mem_map.mp hbound
      obtain ⟨q, hq, -, v, hv, rfl⟩ := (hfilled entry).mp hentry
      rw [List.inj_on_of_nodup_map hnames hq hp hname, hfallback] at hv
      cases hv

theorem reads_or_isFaulty (d : Definition) (arguments : List Argument) :
    (∃ meant, d.Reads [] arguments meant ∧ d.lacking meant = []) ∨
      ∃ reason, d.IsFaulty arguments reason := by
  rcases d.reads_or_stops [] arguments with ⟨meant, hreads⟩ | ⟨reason, hstops⟩
  · cases hlacking : d.lacking meant with
    | nil => exact .inl ⟨meant, hreads, hlacking⟩
    | cons first more => exact .inr ⟨_, .missing hreads hlacking⟩
  · exact .inr ⟨reason, .stops hstops⟩

theorem bindArguments_table (hd : d.IsBuilt) (hreads : d.Reads [] call.arguments meant)
    (hkeys : Entries.keys given = meant.map Parameter.name)
    (hgiven : List.Forall₂ (fun argument entry => registry.Denotes argument.term entry.2)
      call.arguments given) :
    registry.bindArguments d.name d.table [] call.arguments =
      Registry.complete d.name (Registry.unbound d.parameters (meant.map Parameter.name))
        given := by
  have hbind := Registry.bindArguments_of_reads [] hreads hkeys hgiven
  rw [table_eq_parameters hd.nodup_names]
  rwa [Entries.keys_nil, Registry.unbound_nil, List.nil_append, hkeys] at hbind

theorem exists_isMatch (hd : d.IsBuilt)
    (hterms : ∀ argument ∈ call.arguments, ∃ binding, registry.Denotes argument.term binding)
    (hreads : d.Reads [] call.arguments meant) (hlacking : d.lacking meant = []) :
    ∃ m, d.matchSignature registry call = .ok m ∧
      d.IsMatch registry call.arguments meant m := by
  obtain ⟨given, hkeys, hgiven⟩ := Registry.exists_given hreads hterms
  refine ⟨_, ?_, isMatch_of_reads hd.nodup_names hreads hkeys hgiven⟩
  rw [matchSignature, bindArguments_table hd hreads hkeys hgiven, Registry.complete,
    missing_unbound, hlacking]

theorem matchSignature_of_isFaulty (hd : d.IsBuilt)
    (hterms : ∀ argument ∈ call.arguments, ∃ binding, registry.Denotes argument.term binding)
    (h : d.IsFaulty call.arguments reason) :
    d.matchSignature registry call = .error (.invalidSignature call.text reason) := by
  cases h with
  | stops hstops =>
      have hbind := Registry.bindArguments_of_stops [] hterms hstops
      rw [Entries.keys_nil, Registry.unbound_nil] at hbind
      rw [matchSignature, table_eq_parameters hd.nodup_names, hbind]
  | missing hreads hlacking =>
      obtain ⟨given, hkeys, hgiven⟩ := Registry.exists_given hreads hterms
      rw [matchSignature, bindArguments_table hd hreads hkeys hgiven, Registry.complete,
        missing_unbound, hlacking]

end Signature

/-- A call whose terms all stand for something matches a definition exactly when its arguments,
read from left to right, mean distinct parameters and no required parameter without a fallback is
left. Then the match has one binding for each argument, its own, and one for each parameter left
that has a fallback. Otherwise the error says for the signature what is wrong with the arguments.
A registry matches its calls so. -/
theorem matchSignature_ends (registry : Registry) {d : Definition} (hd : d.IsBuilt) {call : Call}
    (hterms : ∀ argument ∈ call.arguments, ∃ binding, registry.Denotes argument.term binding) :
    ((∃ m, d.matchSignature registry call = .ok m) ↔
      ∃ meant, d.Reads [] call.arguments meant ∧
        ∀ p ∈ d.parameters, p.required = true → p.fallback = none → p ∈ meant) ∧
    (∀ m, d.matchSignature registry call = .ok m →
      ∃ meant, d.Reads [] call.arguments meant ∧ d.IsMatch registry call.arguments meant m) ∧
    (∀ e, d.matchSignature registry call = .error e ↔
      ∃ reason, d.IsFaulty call.arguments reason ∧ e = .invalidSignature call.text reason) ∧
    (registry.find? call.name = some d →
      registry.matchCall call = d.matchSignature registry call) := by
  have hneeded : ∀ meant, d.Reads [] call.arguments meant → (d.lacking meant = [] ↔
      ∀ p ∈ d.parameters, p.required = true → p.fallback = none → p ∈ meant) :=
    fun meant hreads => lacking_eq_nil_iff hd.nodup_names hreads.mem_parameters
  rcases d.reads_or_isFaulty call.arguments with ⟨meant, hreads, hlacking⟩ | ⟨reason, hfaulty⟩
  · obtain ⟨m, hm, hmatch⟩ := exists_isMatch hd hterms hreads hlacking
    refine ⟨iff_of_true ⟨m, hm⟩ ⟨meant, hreads, (hneeded meant hreads).mp hlacking⟩, ?_, ?_,
      matchCall_eq_matchSignature⟩
    · intro m' hm'
      cases hm.symm.trans hm'
      exact ⟨meant, hreads, hmatch⟩
    · intro e
      refine iff_of_false (fun he => ?_) ?_
      · cases hm.symm.trans he
      · rintro ⟨reason, hfaulty, -⟩
        cases hm.symm.trans (matchSignature_of_isFaulty hd hterms hfaulty)
  · have herror := matchSignature_of_isFaulty hd hterms hfaulty
    refine ⟨iff_of_false ?_ ?_, ?_, ?_, matchCall_eq_matchSignature⟩
    · rintro ⟨m, hm⟩
      cases herror.symm.trans hm
    · rintro ⟨meant, hreads, hcovered⟩
      obtain ⟨m, hm, -⟩ :=
        exists_isMatch hd hterms hreads ((hneeded meant hreads).mpr hcovered)
      cases herror.symm.trans hm
    · intro m hm
      cases herror.symm.trans hm
    · intro e
      constructor
      · intro he
        cases herror.symm.trans he
        exact ⟨reason, hfaulty, rfl⟩
      · rintro ⟨reason', hfaulty', rfl⟩
        exact matchSignature_of_isFaulty hd hterms hfaulty'

/-- Its parameters stand in another order than they were added in. -/
def sample : Definition :=
  (((ofName "f").addParameter ((Parameter.ofName "b").withFallback (.string "x"))).addParameter
    ((Parameter.ofName "c").withRequired false)).addParameter (Parameter.ofName "a")

theorem isBuilt_sample : sample.IsBuilt :=
  .addParameter (.addParameter (.addParameter (.ofName "f") _) _) _

/-- The call f(b='y', g), of which the second argument means the parameter that stands first. -/
def sampleCall : Call :=
  .mk "f" [.mk (some "b") (.literal "'y'"), .mk none (.pipeline [.mk "g" []])]

theorem matchSignature_sample :
    ∃ m meant, Registry.matchCall [sample, ofName "g"] sampleCall = .ok m ∧
      sample.Reads [] sampleCall.arguments meant ∧
      sample.IsMatch [sample, ofName "g"] sampleCall.arguments meant m := by
  have hterms : ∀ argument ∈ sampleCall.arguments,
      ∃ binding, Registry.Denotes [sample, ofName "g"] argument.term binding := by
    refine List.forall_mem_cons.mpr ⟨⟨.value (.string "y"), ?_⟩,
      List.forall_mem_singleton.mpr ⟨.expression [.mk "g" []], ?_⟩⟩
    · exact Registry.denotes_literal_iff.mpr ⟨_, rfl, rfl⟩
    · exact Registry.denotes_pipeline_iff.mpr ⟨_, rfl, .cons rfl .nil⟩
  obtain ⟨hok, hmatch, -, hcall⟩ :=
    matchSignature_ends [sample, ofName "g"] isBuilt_sample hterms
  have hreads : ∃ meant, sample.Reads [] sampleCall.arguments meant ∧
      ∀ p ∈ sample.parameters, p.required = true → p.fallback = none → p ∈ meant := by
    refine ⟨_, .cons (p := (Parameter.ofName "b").withFallback (.string "x")) rfl (by decide)
      (.cons (p := Parameter.ofName "a") rfl (by decide) (.nil _) _) _, ?_⟩
    have hparameters : sample.parameters = [Parameter.ofName "a",
        (Parameter.ofName "c").withRequired false,
        (Parameter.ofName "b").withFallback (.string "x")] := rfl
    simp [hparameters, Parameter.withRequired, Parameter.withFallback]
  obtain ⟨m, hm⟩ := hok.mpr hreads
  obtain ⟨meant, hmeant, his⟩ := hmatch m hm
  exact ⟨m, meant, (hcall rfl).trans hm, hmeant, his⟩

end Definition

end Reshape
