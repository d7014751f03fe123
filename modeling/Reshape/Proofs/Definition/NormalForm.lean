import Reshape.Proofs.Definition.Bindings
import Reshape.Proofs.Json.RoundTrip
import Reshape.Proofs.Transform.Insertions

namespace Reshape

open Pipeline

/-! ### Matches -/

inductive Binding.Agrees (R : Match → Match → Prop) :
    Binding (List Match) → Binding (List Match) → Prop
  | value (v : Value) : Agrees R (.value v) (.value v)
  | expression {found others : List Match} (h : List.Forall₂ R found others) :
      Agrees R (.expression found) (.expression others)

/-- Two matches of one name bind the same parameters, and each to the same. -/
inductive Match.Agrees : Match → Match → Prop
  | mk {name : String} {bindings others : Entries (Binding (List Match))}
      (h : ∀ key, Option.Rel (Binding.Agrees Agrees) (Entries.find? bindings key)
        (Entries.find? others key)) :
      Agrees (.mk name bindings) (.mk name others)

/-- All values in the match can be written. -/
def Match.IsWritable (m : Match) : Prop :=
  ∀ name, m.Holds name Value.IsWritable

/-! ### Calls -/

namespace Pipeline

inductive Term.IsNormal (R : Call → Call → Prop) : Term → Term → Prop
  | literal (text : String) : IsNormal R (.literal text) (.literal text)
  | pipeline {calls normals : List Call} (h : List.Forall₂ R calls normals) :
      IsNormal R (.pipeline calls) (.pipeline normals)

/-- An argument keeps its label, and one without gets the key that it was bound to. -/
inductive AreLabelled (R : Call → Call → Prop) :
    List Argument → List String → List Argument → Prop
  | nil (keys : List String) : AreLabelled R [] keys []
  | cons {label : Option String} {key : String} {keys : List String} {term normal : Term}
      {arguments named : List Argument} (hterm : Term.IsNormal R term normal)
      (hrest : AreLabelled R arguments keys named) :
      AreLabelled R (.mk label term :: arguments) (key :: keys)
        (.mk (some (label.getD key)) normal :: named)

end Pipeline

/-- The argument gives the parameter its own fallback, written out. -/
def Parameter.IsWrittenOut (p : Parameter) (argument : Argument) : Prop :=
  ∃ v text, p.fallback = some v ∧ v.json = .ok text ∧ argument = .mk (some p.name) (.literal text)

/-- The parameters for which there is a fallback and no argument. -/
def Definition.reliedOn (d : Definition) (named : List Argument) : List Parameter :=
  (Registry.unbound d.table (named.filterMap Argument.label)).filter fun p => p.fallback.isSome

namespace Registry

/-- The call has the name of the definition, the parameters that its arguments are bound to as
labels, and the fallbacks that it relies on as arguments. These stand in any order, and nested
calls are in normal form too. -/
inductive IsNormalForm (registry : Registry) : Call → Call → Prop
  | mk {name : String} {arguments named written normal : List Argument} {d : Definition} {m : Match}
      (hfind : registry.find? name = some d)
      (hmatch : registry.matchCall (.mk name arguments) = .ok m)
      (hnamed : AreLabelled (IsNormalForm registry) arguments (Entries.keys m.bindings) named)
      (hwritten : List.Forall₂ Parameter.IsWrittenOut (d.reliedOn named) written)
      (hnormal : normal.Perm (named ++ written)) :
      IsNormalForm registry (.mk name arguments) (.mk d.name normal)

/-- No two names or aliases of the definitions are the same. -/
def HasDistinctNames (registry : Registry) : Prop :=
  (registry.flatMap fun d => d.name :: d.aliases).Nodup

variable {registry : Registry}

theorem hasName_iff {d : Definition} {name : String} :
    d.hasName name = true ↔ name ∈ d.name :: d.aliases := by
  rw [Definition.hasName, Bool.or_eq_true, beq_iff_eq, List.contains_iff_mem, List.mem_cons]
  exact or_congr_left eq_comm

theorem find?_of_hasName (hnames : registry.HasDistinctNames) {d : Definition} (hd : d ∈ registry)
    {name : String} (hname : d.hasName name = true) : registry.find? name = some d := by
  induction registry with
  | nil => cases hd
  | cons e rest ih =>
      rw [HasDistinctNames, List.flatMap_cons, List.nodup_append] at hnames
      obtain ⟨-, hrest, hdisjoint⟩ := hnames
      rcases List.mem_cons.mp hd with rfl | hd
      · exact List.find?_cons_of_pos hname
      · have he : ¬ e.hasName name = true := by
          intro he
          exact hdisjoint name (hasName_iff.mp he) name
            (List.mem_flatMap.mpr ⟨d, hd, hasName_iff.mp hname⟩) rfl
        have hskip : find? (e :: rest) name = find? rest name := List.find?_cons_of_neg he
        rw [hskip, ih hrest hd]

/-! ### Bindings that agree -/

def EntryAgrees (e f : String × Binding (List Match)) : Prop :=
  e.1 = f.1 ∧ Binding.Agrees Match.Agrees e.2 f.2

variable {bound others : Entries (Binding (List Match))}

theorem keys_eq_of_agrees (h : List.Forall₂ EntryAgrees others bound) :
    Entries.keys others = Entries.keys bound :=
  (Entries.forall₂_iff.mp h).1

theorem filterMap_label_of_gives {named : List Argument}
    (h : List.Forall₂ registry.Gives named bound) :
    named.filterMap Argument.label = Entries.keys bound := by
  induction h with
  | nil => rfl
  | cons hgives hrest ih =>
      rw [List.filterMap_cons, hgives.label, ih]
      rfl

theorem gives_fallbacks {remaining : List Parameter} {written : List Argument}
    (hdocuments : ∀ p ∈ remaining, ∀ v, p.fallback = some v → v.IsDocument)
    (hwritten : List.Forall₂ Parameter.IsWrittenOut (remaining.filter fun p => p.fallback.isSome)
      written) :
    List.Forall₂ registry.Gives written (fallbacks remaining) := by
  induction remaining generalizing written with
  | nil =>
      cases hwritten
      exact .nil
  | cons p remaining ih =>
      obtain ⟨hp, hrest⟩ := List.forall_mem_cons.mp hdocuments
      rw [List.filter_cons] at hwritten
      rw [fallbacks, List.filterMap_cons, ← fallbacks]
      cases hfallback : p.fallback with
      | none =>
          rw [hfallback] at hwritten
          exact ih hrest hwritten
      | some v =>
          rw [hfallback] at hwritten
          cases hwritten with
          | cons hargument hwritten =>
              obtain ⟨w, text, hw, hjson, rfl⟩ := hargument
              cases hfallback.symm.trans hw
              have hdecode : decode text = .ok v := decode_write (hp v hfallback) hjson
              exact .cons ⟨rfl, denotes_literal_iff.mpr ⟨v, rfl, hdecode⟩⟩ (ih hrest hwritten)

/-! ### The match of a normal form -/

/-- Every normal form of the call has a match that agrees with its own. -/
def IsStable (registry : Registry) (call : Call) : Prop :=
  ∀ m normal, registry.matchCall call = .ok m → registry.IsNormalForm call normal →
    ∃ m', registry.matchCall normal = .ok m' ∧ m'.Agrees m

theorem exists_matches_of_normals {calls normals : List Call} {found : List Match}
    (hstable : ∀ call ∈ calls, registry.IsStable call)
    (hfound : List.Forall₂ (fun call m => registry.matchCall call = .ok m) calls found)
    (hnormals : List.Forall₂ registry.IsNormalForm calls normals) :
    ∃ matched, List.Forall₂ (fun call m => registry.matchCall call = .ok m) normals matched ∧
      List.Forall₂ Match.Agrees matched found := by
  induction hfound generalizing normals with
  | nil =>
      cases hnormals
      exact ⟨[], .nil, .nil⟩
  | cons hm hfound ih =>
      cases hnormals with
      | cons hnormal hnormals =>
          obtain ⟨hcall, hcalls⟩ := List.forall_mem_cons.mp hstable
          obtain ⟨m', hm', hagrees⟩ := hcall _ _ hm hnormal
          obtain ⟨matched, hmatched, hrest⟩ := ih hcalls hnormals
          exact ⟨m' :: matched, .cons hm' hmatched, .cons hagrees hrest⟩

theorem exists_denotes_of_isNormal {term normal : Term} {binding : Binding (List Match)}
    (hstable : ∀ calls, term = .pipeline calls → ∀ call ∈ calls, registry.IsStable call)
    (hterm : registry.Denotes term binding)
    (hnormal : Term.IsNormal registry.IsNormalForm term normal) :
    ∃ other, registry.Denotes normal other ∧ Binding.Agrees Match.Agrees other binding := by
  cases hnormal with
  | literal text =>
      obtain ⟨v, rfl, hdecode⟩ := denotes_literal_iff.mp hterm
      exact ⟨.value v, hterm, .value v⟩
  | pipeline hnormals =>
      obtain ⟨found, rfl, hfound⟩ := denotes_pipeline_iff.mp hterm
      obtain ⟨matched, hmatched, hagrees⟩ :=
        exists_matches_of_normals (hstable _ rfl) hfound hnormals
      exact ⟨.expression matched, denotes_pipeline_iff.mpr ⟨matched, rfl, hmatched⟩,
        .expression hagrees⟩

theorem exists_gives_of_areLabelled {arguments named : List Argument} {more : List String}
    (hstable : ∀ argument ∈ arguments, ∀ calls, argument.term = .pipeline calls →
      ∀ call ∈ calls, registry.IsStable call)
    (hbinds : List.Forall₂ registry.Binds arguments bound)
    (hnamed : AreLabelled registry.IsNormalForm arguments (Entries.keys bound ++ more) named) :
    ∃ others, List.Forall₂ registry.Gives named others ∧
      List.Forall₂ EntryAgrees others bound := by
  induction hbinds generalizing named with
  | nil =>
      cases hnamed
      exact ⟨[], .nil, .nil⟩
  | @cons argument e arguments bound hbinds hrest ih =>
      obtain ⟨hargument, harguments⟩ := List.forall_mem_cons.mp hstable
      rw [Entries.keys_cons, List.cons_append] at hnamed
      cases hnamed with
      | @cons label key keys term normal arguments named hterm hnamed =>
          obtain ⟨other, hother, hagrees⟩ :=
            exists_denotes_of_isNormal hargument hbinds.term hterm
          obtain ⟨others, hothers, hrestAgrees⟩ := ih harguments hnamed
          have hgives : registry.Gives (.mk (some (label.getD e.1)) normal) (e.1, other) :=
            ⟨congrArg some hbinds.getD_label, hother⟩
          exact ⟨_, .cons hgives hothers, .cons ⟨rfl, hagrees⟩ hrestAgrees⟩

theorem agrees_fallbacks (remaining : List Parameter) :
    List.Forall₂ EntryAgrees (fallbacks remaining) (fallbacks remaining) := by
  refine List.forall₂_same.mpr fun e he => ⟨rfl, ?_⟩
  obtain ⟨p, hp, hfallback⟩ := List.mem_filterMap.mp he
  obtain ⟨v, hv, rfl⟩ := Option.map_eq_some_iff.mp hfallback
  exact .value v

theorem exists_bindings_of_normal {d : Definition} {named written normal : List Argument}
    (hdocuments : ∀ p ∈ d.parameters, ∀ v, p.fallback = some v → v.IsDocument)
    (hdistinct : (Entries.keys bound).Nodup)
    (hknown : ∀ key ∈ Entries.keys bound, key ∈ d.table.map Parameter.name)
    (hmissing : missing (unbound d.table (Entries.keys bound)) = [])
    (hothers : List.Forall₂ registry.Gives named others)
    (hagrees : List.Forall₂ EntryAgrees others bound)
    (hwritten : List.Forall₂ Parameter.IsWrittenOut (d.reliedOn named) written)
    (hnormal : normal.Perm (named ++ written)) :
    ∃ bindings, registry.bindArguments d.name d.table [] normal = .ok bindings ∧
      ∀ key, Option.Rel (Binding.Agrees Match.Agrees) (Entries.find? bindings key)
        (Entries.find? (bound ++ fallbacks (unbound d.table (Entries.keys bound))) key) := by
  obtain ⟨htable, hmembers⟩ := d.table_names
  have hlabels : named.filterMap Argument.label = Entries.keys bound := by
    rw [filterMap_label_of_gives hothers, keys_eq_of_agrees hagrees]
  have hgives : List.Forall₂ registry.Gives (named ++ written)
      (others ++ fallbacks (unbound d.table (Entries.keys bound))) := by
    rw [Definition.reliedOn, hlabels] at hwritten
    refine List.rel_append hothers (gives_fallbacks (fun p hp => ?_) hwritten)
    exact hdocuments p (hmembers p (mem_unbound.mp hp).1)
  -- The arguments of a normal form stand in any order, and so do the bindings they make.
  obtain ⟨bindings, hbindings, hperm⟩ := List.perm_comp_forall₂ hnormal hgives
  have hkeys : (Entries.keys bindings).Perm (Entries.keys bound ++
      Entries.keys (fallbacks (unbound d.table (Entries.keys bound)))) := by
    have hmapped : (Entries.keys bindings).Perm (Entries.keys
        (others ++ fallbacks (unbound d.table (Entries.keys bound)))) := hperm.map Prod.fst
    rwa [Entries.keys_append, keys_eq_of_agrees hagrees] at hmapped
  have hnodup : (Entries.keys bindings).Nodup :=
    hkeys.nodup_iff.mpr (nodup_keys_bindings htable hdistinct)
  have hbound : IsBound registry.Gives d.table normal bindings := by
    refine ⟨hbindings, hnodup, fun key hkey => ?_⟩
    rcases List.mem_append.mp (hkeys.mem_iff.mp hkey) with hkey | hkey
    · exact hknown key hkey
    · rw [keys_fallbacks] at hkey
      obtain ⟨p, hp, rfl⟩ := List.mem_map.mp hkey
      exact List.mem_map_of_mem (mem_unbound.mp (List.mem_filter.mp hp).1).1
  refine ⟨bindings, ?_, fun key => ?_⟩
  · rw [bindArguments_of_isBound hbound fun _ _ => List.not_mem_nil, List.nil_append]
    exact complete_of_keys hmissing (fun key => by rw [hkeys.mem_iff, List.mem_append]) bindings
  · rw [Entries.find?_eq_of_perm hperm hnodup]
    exact Entries.rel_find?_of_forall₂ (List.rel_append hagrees (agrees_fallbacks _)) key

theorem isStable (hnames : registry.HasDistinctNames)
    (hdocuments : registry.HasDocumentFallbacks) (call : Call) : registry.IsStable call := by
  induction call using Call.induction_nested with
  | parent name arguments hstable =>
      intro m normal hmatch hnormal
      cases hnormal with
      | @mk _ _ named written normal d m' hfind hmatch' hnamed hwritten hnormal =>
          -- The match that the normal form is made from is the one of the call.
          obtain ⟨d', bindings, hfind', hbindings, rfl⟩ := matchCall_eq_ok_iff.mp hmatch
          cases hmatch.symm.trans hmatch'
          cases hfind.symm.trans hfind'
          have hd : d ∈ registry := List.mem_of_find?_eq_some hfind
          have hname : registry.find? d.name = some d :=
            find?_of_hasName hnames hd (hasName_iff.mpr List.mem_cons_self)
          obtain ⟨bound, hbound, hcomplete⟩ := exists_isBound_of_bindArguments hbindings
          obtain ⟨hmissing, rfl⟩ := complete_eq_ok_iff.mp hcomplete
          rw [Match.bindings, List.nil_append, Entries.keys_append] at hnamed
          obtain ⟨others, hothers, hagrees⟩ :=
            exists_gives_of_areLabelled hstable hbound.each hnamed
          obtain ⟨bindings', hbindings', hrel⟩ := exists_bindings_of_normal (hdocuments d hd)
            hbound.distinct hbound.known hmissing hothers hagrees hwritten hnormal
          refine ⟨.mk d.name bindings', ?_, .mk hrel⟩
          exact matchCall_eq_ok_iff.mpr ⟨d, bindings', hname, hbindings', rfl⟩

/-! ### Normal forms exist -/

/-- The call has a normal form if the values of its match can be written. -/
def HasNormalForm (registry : Registry) (call : Call) : Prop :=
  ∀ m, registry.matchCall call = .ok m → m.IsWritable →
    ∃ normal, registry.IsNormalForm call normal

theorem exists_normals {calls : List Call} {found : List Match}
    (hcalls : ∀ call ∈ calls, registry.HasNormalForm call)
    (hfound : List.Forall₂ (fun call m => registry.matchCall call = .ok m) calls found)
    (hwritable : ∀ m ∈ found, m.IsWritable) :
    ∃ normals, List.Forall₂ registry.IsNormalForm calls normals := by
  induction hfound with
  | nil => exact ⟨[], .nil⟩
  | cons hm hfound ih =>
      obtain ⟨hcall, hcalls⟩ := List.forall_mem_cons.mp hcalls
      obtain ⟨hwritable, hrest⟩ := List.forall_mem_cons.mp hwritable
      obtain ⟨normal, hnormal⟩ := hcall _ hm hwritable
      obtain ⟨normals, hnormals⟩ := ih hcalls hrest
      exact ⟨normal :: normals, .cons hnormal hnormals⟩

theorem exists_areLabelled {arguments : List Argument} (more : List String)
    (hcalls : ∀ argument ∈ arguments, ∀ calls, argument.term = .pipeline calls →
      ∀ call ∈ calls, registry.HasNormalForm call)
    (hbinds : List.Forall₂ registry.Binds arguments bound)
    (hwritable : ∀ e ∈ bound, ∀ found, e.2 = .expression found → ∀ m ∈ found, m.IsWritable) :
    ∃ named, AreLabelled registry.IsNormalForm arguments (Entries.keys bound ++ more) named ∧
      named.filterMap Argument.label = Entries.keys bound := by
  induction hbinds with
  | nil => exact ⟨[], .nil _, rfl⟩
  | @cons argument e arguments bound hbinds hrest ih =>
      obtain ⟨label, term⟩ := argument
      obtain ⟨hargument, harguments⟩ := List.forall_mem_cons.mp hcalls
      obtain ⟨he, hwritable⟩ := List.forall_mem_cons.mp hwritable
      obtain ⟨named, hnamed, hlabels⟩ := ih harguments hwritable
      have hterm : ∃ normal, Term.IsNormal registry.IsNormalForm term normal := by
        cases term with
        | literal text => exact ⟨_, .literal text⟩
        | pipeline calls =>
            obtain ⟨found, hbinding, hfound⟩ := denotes_pipeline_iff.mp hbinds.term
            obtain ⟨normals, hnormals⟩ :=
              exists_normals (hargument calls rfl) hfound (he found hbinding)
            exact ⟨_, .pipeline hnormals⟩
      obtain ⟨normal, hnormal⟩ := hterm
      refine ⟨_, .cons hnormal hnamed, ?_⟩
      rw [List.filterMap_cons, hlabels, Argument.label, hbinds.getD_label]
      rfl

theorem exists_written {remaining : List Parameter}
    (hwritable : ∀ p ∈ remaining, ∀ v, p.fallback = some v → v.IsWritable) :
    ∃ written, List.Forall₂ Parameter.IsWrittenOut
      (remaining.filter fun p => p.fallback.isSome) written := by
  induction remaining with
  | nil => exact ⟨[], .nil⟩
  | cons p remaining ih =>
      obtain ⟨hp, hrest⟩ := List.forall_mem_cons.mp hwritable
      obtain ⟨written, hwritten⟩ := ih hrest
      rw [List.filter_cons]
      cases hfallback : p.fallback with
      | none => exact ⟨written, hwritten⟩
      | some v =>
          have hshort := (Value.isWritable_iff.mp (hp v hfallback)).2
          exact ⟨_, .cons ⟨v, _, hfallback, Json.json_eq_ok hshort, rfl⟩ hwritten⟩

theorem hasNormalForm (call : Call) : registry.HasNormalForm call := by
  induction call using Call.induction_nested with
  | parent name arguments hcalls =>
      intro m hmatch hwritable
      obtain ⟨d, bindings, hfind, hbindings, rfl⟩ := matchCall_eq_ok_iff.mp hmatch
      obtain ⟨bound, hbound, hcomplete⟩ := exists_isBound_of_bindArguments hbindings
      obtain ⟨-, rfl⟩ := complete_eq_ok_iff.mp hcomplete
      rw [List.nil_append] at hwritable
      have hcallsWritable : ∀ e ∈ bound, ∀ found, e.2 = .expression found →
          ∀ m ∈ found, m.IsWritable := by
        rintro ⟨key, binding⟩ he found rfl m hm name
        cases hwritable name with
        | mk hvalue hinner => exact hinner key found (List.mem_append_left _ he) m hm
      obtain ⟨named, hnamed, hlabels⟩ := exists_areLabelled
        (Entries.keys (fallbacks (unbound d.table (Entries.keys bound)))) hcalls hbound.each
        hcallsWritable
      obtain ⟨written, hwritten⟩ : ∃ written,
          List.Forall₂ Parameter.IsWrittenOut (d.reliedOn named) written := by
        rw [Definition.reliedOn, hlabels]
        refine exists_written fun p hp v hv => ?_
        cases hwritable p.name with
        | mk hvalue hinner =>
            refine hvalue v (List.mem_append_right _ (List.mem_filterMap.mpr ⟨p, hp, ?_⟩))
            rw [hv, Option.map_some]
      rw [← Entries.keys_append] at hnamed
      exact ⟨_, .mk hfind hmatch hnamed hwritten (List.Perm.refl _)⟩

end Registry

/-- A limit that is not too long is all that it takes to write what a match holds. -/
theorem Builtin.isWritable_of_matchCall {settings : Settings}
    (hlimit : Decimal.isShort settings.replaceLimit = true) {call : Call} {m : Match}
    (h : (definitions settings).matchCall call = .ok m) : m.IsWritable := by
  refine fun name => Registry.holds_of_matchCall (fun call m v hm hmem => ?_) call m h
  rcases Registry.value_of_mem_bindings hm hmem with hv | ⟨d, hd, p, hp, -, hfallback⟩
  · exact hv
  · rcases string_or_limit_of_fallback hd hp hfallback with ⟨s, rfl⟩ | rfl
    · exact .string s
    · exact .number hlimit

theorem Builtin.hasDistinctNames (settings : Settings) :
    (definitions settings).HasDistinctNames := by
  have hnames : (definitions settings).flatMap (fun d => d.name :: d.aliases) =
      (definitions {}).flatMap fun d => d.name :: d.aliases := by
    rfl
  rw [Registry.HasDistinctNames, hnames]
  decide

/-- A call in normal form has the match of the call that it stands for, and every call that has a
match of values that can be written has a normal form. The names that are defined for settings are
distinct, and what their calls match can be written unless the limit in the settings is too long. -/
theorem Registry.matchCall_isNormalForm :
    (∀ settings, (Builtin.definitions settings).HasDistinctNames ∧
      (Builtin.definitions settings).HasDocumentFallbacks ∧
      (Decimal.isShort settings.replaceLimit = true → ∀ call m,
        (Builtin.definitions settings).matchCall call = .ok m → m.IsWritable)) ∧
    ∀ (registry : Registry), registry.HasDistinctNames → registry.HasDocumentFallbacks →
      ∀ call m, registry.matchCall call = .ok m →
        (m.IsWritable → ∃ normal, registry.IsNormalForm call normal) ∧
        ∀ normal, registry.IsNormalForm call normal →
          ∃ m', registry.matchCall normal = .ok m' ∧ m'.Agrees m := by
  constructor
  · intro settings
    exact ⟨Builtin.hasDistinctNames settings, Builtin.hasDocumentFallbacks settings,
      fun hlimit _ _ hmatch => Builtin.isWritable_of_matchCall hlimit hmatch⟩
  · intro registry hnames hdocuments call m hmatch
    constructor
    · exact hasNormalForm call m hmatch
    · intro normal hnormal
      exact isStable hnames hdocuments call m normal hmatch hnormal

theorem Registry.matchCall_eachValue :
    ∃ m', (Builtin.definitions { }).matchCall
        (.mk "each_value" [.mk (some "expression") (.pipeline [.mk "replace_string"
          [.mk (some "limit") (.literal "0"), .mk (some "regex") (.literal "'a'"),
            .mk (some "replacement") (.literal "'b'")]])]) = .ok m' ∧
      m'.Agrees (.mk "each_value" [("expression", .expression [.mk "replace_string"
        [("replacement", .value (.string "b")), ("regex", .value (.string "a")),
          ("limit", .value (.number (.int 0)))]])]) := by
  have hreplace : (Builtin.definitions { }).matchCall (.mk "rs"
      [.mk (some "replacement") (.literal "'b'"), .mk none (.literal "'a'")]) =
      .ok (.mk "replace_string" [("replacement", .value (.string "b")),
        ("regex", .value (.string "a")), ("limit", .value (.number (.int 0)))]) := by
    rfl
  have hshort : (Value.number (.int 0)).isShort = true := by
    rw [Value.isShort, Number.isShort, Decimal.isShort, decide_eq_true_eq, Int.natAbs_zero]
    exact tenTo_pos _
  have hzero : (Value.number (.int 0)).json = .ok "0" := by
    rw [Json.json_eq_ok hshort, Json.chars, Number.chars, Decimal.signedDigits, Decimal.digits]
    rfl
  have hreplaceNormal : (Builtin.definitions { }).IsNormalForm
      (.mk "rs" [.mk (some "replacement") (.literal "'b'"), .mk none (.literal "'a'")])
      (.mk "replace_string" [.mk (some "limit") (.literal "0"),
        .mk (some "regex") (.literal "'a'"), .mk (some "replacement") (.literal "'b'")]) :=
    .mk rfl hreplace (.cons (.literal _) (.cons (.literal _) (.nil _)))
      (.cons ⟨_, _, rfl, hzero, rfl⟩ .nil) (List.reverse_perm _)
  have heach : (Builtin.definitions { }).matchCall (.mk "ev" [.mk none (.pipeline [.mk "rs"
      [.mk (some "replacement") (.literal "'b'"), .mk none (.literal "'a'")]])]) =
      .ok (.mk "each_value" [("expression", .expression [.mk "replace_string"
        [("replacement", .value (.string "b")), ("regex", .value (.string "a")),
          ("limit", .value (.number (.int 0)))]])]) := by
    rfl
  have heachNormal := IsNormalForm.mk (d := Builtin.eachValue) rfl heach
    (.cons (.pipeline (.cons hreplaceNormal .nil)) (.nil _)) .nil (List.Perm.refl _)
  exact (Registry.matchCall_isNormalForm.2 _ (Builtin.hasDistinctNames { })
    (Builtin.hasDocumentFallbacks { }) _ _ heach).2 _ heachNormal

end Reshape
