import Reshape.Proofs.Definition.Bindings
import Reshape.Proofs.Json.RoundTrip

namespace Reshape

open Pipeline

theorem Definition.table_names (d : Definition) :
    (d.table.map Parameter.name).Nodup ∧ ∀ p ∈ d.table, p ∈ d.parameters := by
  have hpairs : ∀ e ∈ d.parameters.map fun p => (p.name, p),
      e.1 = e.2.name ∧ e.2 ∈ d.parameters := by
    intro e he
    obtain ⟨p, hp, rfl⟩ := List.mem_map.mp he
    exact ⟨rfl, hp⟩
  obtain ⟨hkeys, hentries⟩ := Entries.nodup_keys_ofList_and_forall_mem hpairs
  constructor
  · have hnames : d.table.map Parameter.name =
        Entries.keys (Entries.ofList (d.parameters.map fun p => (p.name, p))) := by
      rw [table, List.map_map]
      exact (List.map_congr_left fun e he => (hentries e he).1).symm
    rwa [hnames]
  · intro p hp
    obtain ⟨e, he, rfl⟩ := List.mem_map.mp hp
    exact (hentries e he).2

/-- What is bound to a parameter of a match, or of one of those in its expressions, satisfies a
predicate if it is a value. -/
inductive Match.Holds (name : String) (P : Value → Prop) : Match → Prop
  | mk {function : String} {bindings : Entries (Binding (List Match))}
      (hvalue : ∀ v, (name, .value v) ∈ bindings → P v)
      (hcalls : ∀ key calls, (key, .expression calls) ∈ bindings → ∀ m ∈ calls, Holds name P m) :
      Holds name P (.mk function bindings)

namespace Registry

variable {registry : Registry} {name : String}

/-- The fallbacks of all parameters are documents. -/
def HasDocumentFallbacks (registry : Registry) : Prop :=
  ∀ d ∈ registry, ∀ p ∈ d.parameters, ∀ v, p.fallback = some v → v.IsDocument

/-- No parameter of the name has a fallback. -/
def HasNoFallback (registry : Registry) (name : String) : Prop :=
  ∀ d ∈ registry, ∀ p ∈ d.parameters, p.name = name → p.fallback = none

theorem hasNoFallback_iff :
    registry.HasNoFallback name ↔ name ∉ registry.flatMap fun d =>
      (d.parameters.filter fun p => p.fallback.isSome).map Parameter.name := by
  simp only [HasNoFallback, List.mem_flatMap, List.mem_map, List.mem_filter, not_exists, not_and]
  refine forall₂_congr fun d _ => ?_
  constructor
  · rintro h p ⟨hp, hfallback⟩ hname
    rw [h p hp hname] at hfallback
    cases hfallback
  · intro h p hp hname
    rw [← Option.not_isSome_iff_eq_none]
    exact fun hfallback => h p ⟨hp, hfallback⟩ hname

theorem value_of_mem_bindings {call : Call} {m : Match} (h : registry.matchCall call = .ok m)
    {v : Value} (hmem : (name, .value v) ∈ m.bindings) :
    v.IsWritable ∨ ∃ d ∈ registry, ∃ p ∈ d.parameters, p.name = name ∧ p.fallback = some v := by
  obtain ⟨function, arguments⟩ := call
  rcases mem_bindings_of_matchCall h hmem with
    ⟨argument, -, hdenotes⟩ | ⟨d, hd, p, hp, w, hw, hentry⟩
  · cases hterm : argument.term with
    | literal text =>
        rw [hterm] at hdenotes
        obtain ⟨w, hw, hdecode⟩ := denotes_literal_iff.mp hdenotes
        cases hw
        exact .inl (isWritable_of_decode hdecode)
    | pipeline calls =>
        rw [hterm] at hdenotes
        obtain ⟨found, hbinding, -⟩ := denotes_pipeline_iff.mp hdenotes
        cases hbinding
  · cases hentry
    exact .inr ⟨d, hd, p, d.table_names.2 p hp, rfl, hw⟩

theorem isDocument_of_mem_bindings (hregistry : registry.HasDocumentFallbacks) {call : Call}
    {m : Match} (h : registry.matchCall call = .ok m) {v : Value}
    (hmem : (name, .value v) ∈ m.bindings) : v.IsDocument := by
  rcases value_of_mem_bindings h hmem with hv | ⟨d, hd, p, hp, -, hfallback⟩
  · exact hv.isDocument
  · exact hregistry d hd p hp v hfallback

theorem isWritable_of_mem_bindings (hregistry : registry.HasNoFallback name) {call : Call}
    {m : Match} (h : registry.matchCall call = .ok m) {v : Value}
    (hmem : (name, .value v) ∈ m.bindings) : v.IsWritable := by
  rcases value_of_mem_bindings h hmem with hv | ⟨d, hd, p, hp, hname, hfallback⟩
  · exact hv
  · rw [hregistry d hd p hp hname] at hfallback
    cases hfallback

theorem holds_of_matchCall {P : Value → Prop}
    (hvalue : ∀ call m v, registry.matchCall call = .ok m → (name, .value v) ∈ m.bindings → P v)
    (call : Call) : ∀ m, registry.matchCall call = .ok m → m.Holds name P := by
  refine match_induction (fun call m hm ih => ?_) call
  obtain ⟨function, bindings⟩ := m
  exact .mk (fun v hmem => hvalue call _ v hm hmem) ih

end Registry

end Reshape
