import Reshape.Proofs.Pipeline.Join
import Reshape.Proofs.Transform.Insertions
import Reshape.Query.Engine
import Reshape.Transform.Equal

namespace Reshape

/-! ### Stages -/

/-- A way to put stages together: one behind the other, or in a list. -/
inductive Grouping where
  | stage (s : Stage)
  | andThen (first next : Grouping)
  | nest (parts : List Grouping)

theorem Stage.members_andThen (first next : Stage) :
    (first.andThen next).members = first.members ++ next.members := by
  cases first with
  | transform t => simp [andThen, concat, members]
  | chain chain => simp [andThen, concat, members, List.flatMap_map]

namespace Grouping

mutual

/-- What a grouping makes. -/
def compose : Grouping → Stage
  | stage s => s
  | andThen first next => first.compose.andThen next.compose
  | nest parts => .chain (Stage.concat (composeAll parts))

def composeAll : List Grouping → List Stage
  | [] => []
  | g :: rest => g.compose :: composeAll rest

end

mutual

/-- The stages of a grouping from left to right. -/
def leaves : Grouping → List Stage
  | stage s => [s]
  | andThen first next => first.leaves ++ next.leaves
  | nest parts => leavesOfAll parts

def leavesOfAll : List Grouping → List Stage
  | [] => []
  | g :: rest => g.leaves ++ leavesOfAll rest

end

mutual

theorem members_compose (g : Grouping) :
    g.compose.members = g.leaves.flatMap Stage.members := by
  cases g with
  | stage s => simp [compose, leaves]
  | andThen first next =>
      rw [compose, leaves, Stage.members_andThen, first.members_compose, next.members_compose,
        List.flatMap_append]
  | nest parts => exact concat_composeAll parts

theorem concat_composeAll (parts : List Grouping) :
    Stage.concat (composeAll parts) = (leavesOfAll parts).flatMap Stage.members := by
  cases parts with
  | nil => rfl
  | cons g rest =>
      have hrest := concat_composeAll rest
      rw [Stage.concat] at hrest ⊢
      rw [composeAll, leavesOfAll, List.flatMap_cons, List.flatMap_append, hrest,
        g.members_compose]

end

theorem exists_compose_eq_chain {g : Grouping} (h : ∀ s ∈ g.leaves, ∃ c, s = .chain c) :
    ∃ c, g.compose = .chain c := by
  cases g with
  | stage s => exact h s List.mem_cons_self
  | andThen first next =>
      rw [compose]
      cases first.compose with
      | transform t => exact ⟨_, rfl⟩
      | chain chain => exact ⟨_, rfl⟩
  | nest parts => exact ⟨_, rfl⟩

theorem compose_eq_flatten {g : Grouping} {chains : List Chain}
    (h : g.leaves = chains.map .chain) : g.compose = .chain chains.flatten := by
  have hchains : ∀ s ∈ g.leaves, ∃ c, s = .chain c := by
    rw [h]
    intro s hs
    obtain ⟨c, -, rfl⟩ := List.mem_map.mp hs
    exact ⟨c, rfl⟩
  obtain ⟨c, hc⟩ := exists_compose_eq_chain hchains
  have hmembers := g.members_compose
  rw [hc, h, List.flatMap_map] at hmembers
  rw [hc, show c = chains.flatMap id from hmembers, List.flatMap_id]

end Grouping

/-! ### Chains -/

namespace Chain

theorem apply_append (first next : Chain) (v : Value) :
    apply (first ++ next) v = apply first v >>= apply next := by
  induction first generalizing v with
  | nil => rw [List.nil_append, apply]; rfl
  | cons t first ih =>
      rw [List.cons_append, apply_cons, apply_cons, bind_assoc]
      exact bind_congr ih

theorem apply_flatten (chains : List Chain) (v : Value) :
    apply chains.flatten v = chains.foldlM (fun w chain => apply chain w) v := by
  induction chains generalizing v with
  | nil => rfl
  | cons chain chains ih =>
      rw [List.flatten_cons, apply_append, List.foldlM_cons]
      congr 1
      funext w
      exact ih w

end Chain

theorem Query.equal_self (query : Query) : (query == query) = true :=
  beq_self_eq_true query.text

mutual

theorem Transform.equal_self (t : Transform) (ht : t.Inserts Value.IsDocument) :
    t.equal t = true := by
  cases t with
  | mutate query chain =>
      simp [Transform.equal, query.equal_self,
        Chain.equal_self chain (List.forall_mem_cons.mp ht).2]
  | eachKey chain => simp [Transform.equal, Chain.equal_self chain (List.forall_mem_cons.mp ht).2]
  | eachValue chain => simp [Transform.equal, Chain.equal_self chain (List.forall_mem_cons.mp ht).2]
  | visitKeys chain maxDepth =>
      simp [Transform.equal, Chain.equal_self chain (List.forall_mem_cons.mp ht).2]
  | visitValues chain maxDepth =>
      simp [Transform.equal, Chain.equal_self chain (List.forall_mem_cons.mp ht).2]
  | insertElement index v =>
      simp [Transform.equal, (ht _ List.mem_cons_self v List.mem_cons_self).equal_self]
  | insertEntry key v =>
      simp [Transform.equal, (ht _ List.mem_cons_self v List.mem_cons_self).equal_self]
  | replaceString substitution => simp [Transform.equal, Substitution.equal]
  | _ => simp [Transform.equal, Query.equal_self]

theorem Chain.equal_self (chain : Chain) (hchain : chain.Inserts Value.IsDocument) :
    Chain.equal chain chain = true := by
  cases chain with
  | nil => rfl
  | cons t rest =>
      obtain ⟨ht, hrest⟩ := List.forall_mem_cons.mp (Chain.inserts_iff.mp hchain)
      rw [Chain.equal, t.equal_self ht,
        Chain.equal_self rest (Chain.inserts_iff.mpr hrest)]
      rfl

end

/-! ### Pipelines -/

namespace Registry

open Pipeline

variable [Tools] {registry : Registry} {texts : List String} {chains : List Chain}

/-- Texts that compile one by one compile together: in a list, or joined by dots or white space.
The chain is the one that their chains make in any grouping. It has one transform for each
call and no chain among its members, and it applies the chains one after the other. -/
theorem compile_flatten
    (h : List.Forall₂ (fun text chain => registry.compile [text] = .ok chain) texts chains) :
    registry.compile texts = .ok chains.flatten ∧
      (∀ text, IsJoined texts text → registry.compile [text] = .ok chains.flatten) ∧
      (∀ g : Grouping, g.leaves = chains.map .chain → g.compose = .chain chains.flatten) ∧
      (∃ callss, List.Forall₂ (fun text calls => read text = .ok calls) texts callss ∧
        List.Forall₂ registry.Makes callss.flatten chains.flatten) ∧
      (∀ t ∈ chains.flatten, ∀ members, Stage.transform t ≠ .chain members) ∧
      (registry.HasDocumentFallbacks →
        (Stage.chain chains.flatten).equal (.chain chains.flatten) = true) ∧
      ∀ v, Chain.apply chains.flatten v =
        chains.foldlM (fun w chain => Chain.apply chain w) v := by
  -- The calls of each text make its chain, so those of all texts in a row make all of them.
  obtain ⟨callss, hreads, hmakes⟩ :=
    forall₂_exists_iff.mp (h.imp fun _ _ => compile_singleton_iff.mp)
  have hflatten : List.Forall₂ registry.Makes callss.flatten chains.flatten :=
    List.rel_flatten hmakes
  have hcompile : registry.compile texts = .ok chains.flatten :=
    compile_eq_ok_iff.mpr ⟨callss, hreads, hflatten⟩
  refine ⟨hcompile, fun text hjoined => ?_, fun g => g.compose_eq_flatten,
    ⟨callss, hreads, hflatten⟩, nofun, fun hregistry => ?_, Chain.apply_flatten chains⟩
  · exact compile_singleton_iff.mpr ⟨_, read_of_isJoined hjoined hreads, hflatten⟩
  · exact Chain.equal_self _ (inserts_isDocument_of_compile hregistry hcompile)

end Registry

namespace Builtin

theorem makes_operation [Tools] (settings : Settings) (o : Operation) :
    (definitions settings).Makes (.mk o.name []) (.operation o) := by
  refine ⟨.mk o.name [], ?_, ?_⟩
  · rw [Registry.matchCall]
    cases o <;> simp only [Registry.bindArguments] <;> rfl
  · rw [Match.build, builtBindings]
    cases o <;> rfl

open Pipeline in
theorem compile_keys_values :
    @Registry.compile .ofPaths (definitions { }) ["keys"] = .ok [.operation .keys] ∧
      @Registry.compile .ofPaths (definitions { }) ["values"] = .ok [.operation .values] ∧
      @Registry.compile .ofPaths (definitions { }) ["keys.values"] =
        .ok [.operation .keys, .operation .values] := by
  have hkeys : @Registry.compile .ofPaths (definitions { }) ["keys"] = .ok [.operation .keys] :=
    @Registry.compile_name _ .ofPaths "keys" (isName_cons (by decide) (by decide)) _
      (@makes_operation .ofPaths _ .keys)
  have hvalues : @Registry.compile .ofPaths (definitions { }) ["values"] =
      .ok [.operation .values] :=
    @Registry.compile_name _ .ofPaths "values" (isName_cons (by decide) (by decide)) _
      (@makes_operation .ofPaths _ .values)
  have hdot : IsSeparator ".".toList := .dot isGap_nil isGap_nil
  obtain ⟨-, hjoined, -⟩ :=
    @Registry.compile_flatten .ofPaths _ _ _ (.cons hkeys (.cons hvalues .nil))
  exact ⟨hkeys, hvalues, hjoined _ (isJoined_intercalate hdot "keys" ["values"])⟩

end Builtin

end Reshape
