import Reshape.Proofs.Definition.Match
import Reshape.Proofs.Transform.Apply
import Reshape.Proofs.Transform.Compile
import Reshape.Proofs.Transform.Agreement

namespace Reshape

variable {P : Value → Prop}

/-- The values that a transform puts into documents. -/
def Transform.inserted : Transform → List Value
  | .insertElement _ v => [v]
  | .insertEntry _ v => [v]
  | _ => []

/-- All that the parts of a chain insert satisfies a predicate. -/
def Chain.Inserts (P : Value → Prop) (chain : Chain) : Prop :=
  ∀ part ∈ Chain.parts chain, ∀ v ∈ part.inserted, P v

def Transform.Inserts (P : Value → Prop) (t : Transform) : Prop :=
  ∀ part ∈ t.parts, ∀ v ∈ part.inserted, P v

theorem Chain.inserts_iff {chain : Chain} : chain.Inserts P ↔ ∀ t ∈ chain, t.Inserts P := by
  induction chain with
  | nil => exact iff_of_true nofun nofun
  | cons t chain ih =>
      rw [List.forall_mem_cons, ← ih]
      exact List.forall_mem_append

theorem Transform.Inserts.of_parts {t : Transform} (inner : Chain)
    (hparts : t.parts = t :: Chain.parts inner) (hinserted : t.inserted = [])
    (hinner : Chain.Inserts P inner) : t.Inserts P := by
  intro part hpart
  rw [hparts] at hpart
  rcases List.mem_cons.mp hpart with rfl | hpart
  · rw [hinserted]
    exact nofun
  · exact hinner part hpart

namespace Builder

/-- What a builder gets: a value to insert that satisfies the predicate, and chains that insert
such values. -/
structure Supplies (P : Value → Prop) (arguments : Arguments Built) : Prop where
  value : Ends (fun _ => True) P (arguments.value "value")
  chain : ∀ name, Ends (fun _ => True)
    (fun built => Ends (fun _ => True) (Chain.Inserts P) built.chain)
    (arguments.expression name)

/-- A builder whose transforms insert nothing else. -/
def Keeps (P : Value → Prop) (builder : Builder) : Prop :=
  ∀ arguments, Supplies P arguments →
    Ends (fun _ => True) (Transform.Inserts P) (builder arguments)

theorem chain_ends {arguments : Arguments Built} (h : Supplies P arguments) :
    Ends (fun _ => True) (Chain.Inserts P) (chain arguments) := by
  refine (h.chain "expression").bind fun built hbuilt => ?_
  cases hchain : built.chain with
  | ok inner => exact .ok (hbuilt.of_eq_ok hchain)
  | error e => exact .error trivial

theorem keeps_map {α : Type} (get : Arguments Built → Except BuildError α) (make : α → Transform)
    (hmake : ∀ a, (make a).parts = [make a] ∧ (make a).inserted = []) :
    Keeps P fun arguments => make <$> get arguments := by
  intro arguments h
  refine (Ends.anyhow (get arguments)).map fun a _ => ?_
  exact .of_parts [] (hmake a).1 (hmake a).2 nofun

theorem keeps_each (make : Chain → Transform)
    (hmake : ∀ inner, (make inner).parts = make inner :: Chain.parts inner ∧
      (make inner).inserted = []) :
    Keeps P fun arguments => make <$> chain arguments := by
  intro arguments h
  refine (chain_ends h).map fun inner hinner => ?_
  exact .of_parts inner (hmake inner).1 (hmake inner).2 hinner

theorem operation_keeps (o : Operation) : Keeps P (operation o) := by
  intro arguments h
  exact .ok (.of_parts [] rfl rfl nofun)

theorem wrapArray_keeps : Keeps P wrapArray := by
  intro arguments h
  exact .ok (.of_parts [] rfl rfl nofun)

theorem mutate_keeps [Tools] : Keeps P mutate := by
  intro arguments h
  refine (Ends.anyhow _).bind fun text _ => (chain_ends h).bind fun inner hinner => ?_
  refine (Ends.anyhow _).bind fun query _ => .ok ?_
  exact .of_parts inner rfl rfl hinner

theorem deleteKeys_keeps [Tools] : Keeps P deleteKeys := by
  intro arguments h
  refine (Ends.anyhow _).bind fun text _ => (Ends.anyhow _).bind fun regex _ => .ok ?_
  exact .of_parts [] rfl rfl nofun

theorem sort_keeps : Keeps P sort := by
  intro arguments h
  refine (Ends.anyhow _).bind fun text _ => (Ends.anyhow _).bind fun order _ => ?_
  refine (Ends.anyhow _).bind fun maxDepth _ => .ok ?_
  exact .of_parts [] rfl rfl nofun

theorem keeps_visit (make : Chain → Option Nat → Transform)
    (hmake : ∀ inner maxDepth, (make inner maxDepth).parts =
      make inner maxDepth :: Chain.parts inner ∧ (make inner maxDepth).inserted = []) :
    Keeps P fun arguments => do
      let chain ← chain arguments
      return make chain (← maxDepth arguments) := by
  intro arguments h
  refine (chain_ends h).bind fun inner hinner => (Ends.anyhow _).bind fun maxDepth _ => .ok ?_
  exact .of_parts inner (hmake inner maxDepth).1 (hmake inner maxDepth).2 hinner

theorem replaceString_keeps [Tools] : Keeps P replaceString := by
  intro arguments h
  refine (Ends.anyhow _).bind fun pattern _ => (Ends.anyhow _).bind fun replacement _ => ?_
  refine (Ends.anyhow _).bind fun limit _ => (Ends.anyhow _).bind fun regex _ => ?_
  refine (Ends.anyhow _).bind fun template _ => .ok ?_
  exact .of_parts [] rfl rfl nofun

theorem insert_keeps : Keeps P insert := by
  intro arguments h
  refine (Ends.anyhow (arguments.keyOrIndex "key_or_index")).bind ?_
  rintro (key | index) -
  · refine h.value.bind fun v hv => .ok ?_
    intro part hpart
    rw [List.mem_singleton.mp hpart]
    exact List.forall_mem_singleton.mpr hv
  · refine h.value.bind fun v hv => .ok ?_
    intro part hpart
    rw [List.mem_singleton.mp hpart]
    exact List.forall_mem_singleton.mpr hv

theorem keeps_of_mem_all [Tools] : ∀ entry ∈ all, Keeps P entry.2 := by
  have hquery : ∀ make : Query → Transform,
      (∀ a, (make a).parts = [make a] ∧ (make a).inserted = []) →
      Keeps P fun arguments => make <$> query arguments := fun make => keeps_map query make
  have hstring : ∀ name, ∀ make : String → Transform,
      (∀ a, (make a).parts = [make a] ∧ (make a).inserted = []) →
      Keeps P fun arguments => make <$> arguments.string name :=
    fun name make => keeps_map (fun arguments => arguments.string name) make
  simp only [all, List.forall_mem_cons]
  exact ⟨hquery _ fun _ => ⟨rfl, rfl⟩, mutate_keeps, hquery _ fun _ => ⟨rfl, rfl⟩,
    hquery _ fun _ => ⟨rfl, rfl⟩, operation_keeps _, hstring _ _ fun _ => ⟨rfl, rfl⟩,
    operation_keeps _, operation_keeps _, operation_keeps _, operation_keeps _,
    operation_keeps _, deleteKeys_keeps, sort_keeps, operation_keeps _,
    keeps_each _ fun _ => ⟨rfl, rfl⟩, keeps_each _ fun _ => ⟨rfl, rfl⟩,
    keeps_visit .visitKeys fun _ _ => ⟨rfl, rfl⟩, keeps_visit .visitValues fun _ _ => ⟨rfl, rfl⟩,
    replaceString_keeps, wrapArray_keeps, hstring _ _ fun _ => ⟨rfl, rfl⟩,
    insert_keeps, List.forall_mem_nil _⟩

theorem run_ends [Tools] {arguments : Arguments Built} (h : Supplies P arguments) :
    Ends (fun _ => True) (Transform.Inserts P) (run arguments) := by
  unfold run
  split
  · exact .error trivial
  · rename_i builder hlookup
    obtain ⟨before, after, hall, -⟩ := List.lookup_eq_some_iff.mp hlookup
    have hmem : (arguments.function, builder) ∈ all := by
      rw [hall]
      exact List.mem_append_right before List.mem_cons_self
    have hbuilder := keeps_of_mem_all _ hmem arguments h
    split
    · rename_i t hresult
      exact .ok (hbuilder.of_eq_ok hresult)
    · exact .error trivial

end Builder

/-! ### Matches -/

theorem Match.build_ends [Tools] {m : Match} (hm : m.Holds "value" P) :
    Ends (fun _ => True) (Transform.Inserts P) m.build := by
  induction hm with
  | @mk name bindings hvalue _ ih =>
      rw [build_eq_run]
      refine Builder.run_ends ⟨?_, fun argument => ?_⟩
      · rw [value_built]
        cases hbound : (mk name bindings).arguments.value "value" with
        | error e => exact .error trivial
        | ok v => exact .ok (hvalue v (value_mem hbound))
      · rw [expression_built]
        cases hexpression : (mk name bindings).arguments.expression argument with
        | error e => exact .error trivial
        | ok calls =>
            have hbuild := buildAll_ends fun m hm =>
              ih _ calls (expression_mem hexpression) m hm
            exact .ok (hbuild.imp fun _ => Chain.inserts_iff.mpr)

/-! ### Pipelines -/

namespace Registry

variable {registry : Registry}

theorem inserts_of_compile [Tools]
    (hvalue : ∀ call m v, registry.matchCall call = .ok m → ("value", .value v) ∈ m.bindings → P v)
    {texts : List String} {chain : Chain} (h : registry.compile texts = .ok chain) :
    chain.Inserts P := by
  obtain ⟨callss, -, hmakes⟩ := compile_eq_ok_iff.mp h
  refine Chain.inserts_iff.mpr fun t ht => ?_
  obtain ⟨call, -, m, hmatch, hbuild⟩ := exists_mem_of_forall₂ hmakes ht
  exact (Match.build_ends (holds_of_matchCall hvalue call m hmatch)).of_eq_ok hbuild

theorem inserts_isDocument_of_compile [Tools] (hregistry : registry.HasDocumentFallbacks)
    {texts : List String} {chain : Chain} (h : registry.compile texts = .ok chain) :
    chain.Inserts Value.IsDocument :=
  inserts_of_compile (fun _ _ _ hm hv => isDocument_of_mem_bindings hregistry hm hv) h

end Registry

namespace Builtin

theorem fallbacks_definitions (settings : Settings) :
    (definitions settings).flatMap (fun d => d.parameters.filterMap Parameter.fallback) =
      [.string settings.flattenPrefix, .string settings.sortOrder,
        .number (.int settings.replaceLimit)] :=
  rfl

theorem string_or_limit_of_fallback {settings : Settings} {d : Definition}
    (hd : d ∈ definitions settings) {p : Parameter} (hp : p ∈ d.parameters) {v : Value}
    (hv : p.fallback = some v) :
    (∃ s, v = .string s) ∨ v = .number (.int settings.replaceLimit) := by
  have hmem : v ∈ (definitions settings).flatMap
      (fun d => d.parameters.filterMap Parameter.fallback) :=
    List.mem_flatMap.mpr ⟨d, hd, List.mem_filterMap.mpr ⟨p, hp, hv⟩⟩
  rw [fallbacks_definitions] at hmem
  simp only [List.mem_cons, List.not_mem_nil, or_false] at hmem
  rcases hmem with rfl | rfl | rfl
  · exact .inl ⟨_, rfl⟩
  · exact .inl ⟨_, rfl⟩
  · exact .inr rfl

theorem hasDocumentFallbacks (settings : Settings) :
    (definitions settings).HasDocumentFallbacks := by
  intro d hd p hp v hv
  rcases string_or_limit_of_fallback hd hp hv with ⟨s, rfl⟩ | rfl
  · exact .string s
  · exact .number _

theorem inserts_isWritable_of_compile [Tools] (settings : Settings) {texts : List String}
    {chain : Chain} (h : (definitions settings).compile texts = .ok chain) :
    chain.Inserts Value.IsWritable :=
  Registry.inserts_of_compile (fun _ _ _ hm hv =>
    Registry.isWritable_of_mem_bindings (hasNoFallback settings (by decide)) hm hv) h

end Builtin

end Reshape
