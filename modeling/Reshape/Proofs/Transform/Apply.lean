import Reshape.Proofs.Json.RoundTrip
import Reshape.Proofs.Key.Listing
import Reshape.Proofs.Value.Shape
import Reshape.Proofs.Value.Sort
import Reshape.Transform.Apply

namespace Reshape

variable {P : Number → Prop} {E : Fault → Prop}

/-! ### Members, keys and nodes -/

namespace Value

variable {v : Value}

theorem mapMembers_ends {f : Value → Except Fault Value}
    (hf : ∀ w : Value, w.IsOver P → Ends E (·.IsOver P) (f w)) (hv : v.IsOver P) :
    Ends E (·.IsOver P) (v.mapMembers f) := by
  have hsame := hv
  cases hv with
  | array hitems => exact (Ends.mapM fun w hw => hf w (hitems w hw)).map fun ws hws => .array hws
  | object hkeys hentries =>
      refine (mapM_entries_ends fun e he => hf e.2 (hentries e he)).map ?_
      rintro fs ⟨hsame, hfs⟩
      exact .object (hsame ▸ hkeys) hfs
  | _ => exact .ok hsame

theorem mapKeys_ends {f : String → Except Fault String}
    (hf : ∀ key, Ends E (fun _ => True) (f key)) (hv : v.IsOver P) :
    Ends E (·.IsOver P) (v.mapKeys f) := by
  have hsame := hv
  cases hv with
  | @object entries hkeys hentries =>
      have hpairs : Ends E (fun pairs : Entries Value => ∀ e ∈ pairs, e.2.IsOver P)
          (entries.mapM fun e => (f e.1).map (·, e.2)) :=
        Ends.mapM fun e he => (hf e.1).map fun _ _ => hentries e he
      refine hpairs.map fun pairs h => ?_
      obtain ⟨hnodup, hvalues⟩ := Entries.nodup_keys_ofList_and_forall_mem h
      exact .object hnodup hvalues
  | _ => exact .ok hsame

theorem IsOver.deleteKeys (hv : v.IsOver P) (regex : Pattern.Regex) :
    (v.deleteKeys regex).IsOver P := by
  have hsame := hv
  cases hv with
  | object hkeys hentries =>
      refine .object ?_ fun e he => hentries e (List.mem_filter.mp he).1
      exact (List.filter_sublist.map Prod.fst).nodup hkeys
  | _ => exact hsame

variable {onKey : String → Except Fault String} {onValue : Value → Except Fault Value}

theorem walkItems_eq_mapM (levels : Option Nat) (items : List Value) :
    walkItems onKey onValue levels items = items.mapM (walk onKey onValue levels) := by
  induction items with
  | nil => rfl
  | cons v vs ih => rw [walkItems, ih, List.mapM_cons]

theorem walkEntries_eq_mapM (levels : Option Nat) (entries : Entries Value) :
    walkEntries onKey onValue levels entries = entries.mapM fun e =>
      onKey e.1 >>= fun key => (walk onKey onValue levels e.2).map (key, ·) := by
  induction entries with
  | nil => rfl
  | cons e rest ih =>
      rw [walkEntries, ih, List.mapM_cons]
      cases onKey e.1 with
      | error fault => rfl
      | ok key => cases walk onKey onValue levels e.2 <;> rfl

theorem walk_ends (hkey : ∀ key, Ends E (fun _ => True) (onKey key))
    (hvalue : ∀ w : Value, w.IsOver P → Ends E (·.IsOver P) (onValue w)) (levels : Option Nat)
    (hv : v.IsOver P) : Ends E (·.IsOver P) (walk onKey onValue levels v) := by
  have hsame := hv
  induction hv generalizing levels with
  | array hitems ih =>
      unfold walk
      split
      · exact hvalue _ hsame
      · have hinner := Ends.mapM fun v hv => ih v hv (innerLevels levels) (hitems v hv)
        rw [walkItems_eq_mapM]
        exact hinner.bind fun vs hvs => hvalue _ (.array hvs)
  | @object entries hkeys hentries ih =>
      unfold walk
      split
      · exact hvalue _ hsame
      · rw [walkEntries_eq_mapM]
        have hinner : ∀ e ∈ entries, Ends E (fun d : String × Value => d.2.IsOver P)
            (onKey e.1 >>= fun key =>
              (walk onKey onValue (innerLevels levels) e.2).map (key, ·)) :=
          fun e he => (hkey e.1).bind fun key _ =>
            (ih e he (innerLevels levels) (hentries e he)).map fun w hw => hw
        refine (Ends.mapM hinner).bind fun pairs hpairs => ?_
        obtain ⟨hnodup, hvalues⟩ := Entries.nodup_keys_ofList_and_forall_mem hpairs
        exact hvalue _ (.object hnodup hvalues)
  | _ => exact hvalue _ hsame

end Value

namespace Key

open Value (IsOver)

theorem nodesOfItems_isOver {items : List Value}
    (h : ∀ v ∈ items, ∀ key, ∀ node ∈ nodes key v, node.2.IsOver P) (key : Key) (index : Nat) :
    ∀ node ∈ nodesOfItems key index items, node.2.IsOver P := by
  induction items generalizing index with
  | nil => nofun
  | cons v vs ih =>
      obtain ⟨hv, hvs⟩ := List.forall_mem_cons.mp h
      rw [nodesOfItems]
      exact List.forall_mem_append.mpr ⟨hv _, ih hvs (index + 1)⟩

theorem nodesOfEntries_isOver {entries : List (String × Value)}
    (h : ∀ e ∈ entries, ∀ key, ∀ node ∈ nodes key e.2, node.2.IsOver P) (key : Key) :
    ∀ node ∈ nodesOfEntries key entries, node.2.IsOver P := by
  induction entries with
  | nil => nofun
  | cons e rest ih =>
      obtain ⟨hv, hrest⟩ := List.forall_mem_cons.mp h
      rw [nodesOfEntries]
      exact List.forall_mem_append.mpr ⟨hv _, ih hrest⟩

theorem nodes_isOver {v : Value} (hv : v.IsOver P) (key : Key) :
    ∀ node ∈ nodes key v, node.2.IsOver P := by
  have hsame := hv
  induction hv generalizing key with
  | array hitems ih =>
      rw [nodes]
      refine List.forall_mem_cons.mpr ⟨.array (List.forall_mem_nil _), ?_⟩
      exact nodesOfItems_isOver (fun v hv key => ih v hv key (hitems v hv)) key 0
  | object hkeys hentries ih =>
      rw [nodes]
      refine List.forall_mem_cons.mpr ⟨.object List.nodup_nil (List.forall_mem_nil _), ?_⟩
      exact nodesOfEntries_isOver (fun e he key => ih e he key (hentries e he)) key
  | _ => exact List.forall_mem_singleton.mpr hsame

theorem flatten_isOver {v : Value} (hv : v.IsOver P) (rootName : String) :
    (Value.object (flatten v rootName)).IsOver P := by
  have hentries : ∀ e ∈ (nodes [] v).map (entryOf rootName), e.2.IsOver P := by
    intro e he
    obtain ⟨node, hnode, rfl⟩ := List.mem_map.mp he
    exact nodes_isOver hv [] node hnode
  have hkeys := nodup_keys_entryOf hv.isDocument rootName
  rw [flatten_eq hv.isDocument]
  exact Value.sortEntries_isOver (.object hkeys hentries) .ascending

end Key

/-! ### Transforms -/

mutual

/-- A transform and those in the chains that it applies, at any depth. -/
def Transform.parts : Transform → List Transform
  | .mutate query chain => .mutate query chain :: Chain.parts chain
  | .eachKey chain => .eachKey chain :: Chain.parts chain
  | .eachValue chain => .eachValue chain :: Chain.parts chain
  | .visitKeys chain maxDepth => .visitKeys chain maxDepth :: Chain.parts chain
  | .visitValues chain maxDepth => .visitValues chain maxDepth :: Chain.parts chain
  | t => [t]

def Chain.parts : List Transform → List Transform
  | [] => []
  | t :: rest => t.parts ++ Chain.parts rest

end

/-- What a transform demands of some numbers and some faults, so that from a document over the
numbers it makes another one or fails with one of the faults. -/
def Transform.Demands (P : Number → Prop) (E : Fault → Prop) : Transform → Prop
  | .operation o => o ≠ .expandKeys
  | .select _ => False
  | .mutate _ _ => False
  | .delete _ => False
  | .remove _ => False
  | .sort _ _ => Value.AllowsMixed P E
  | .replaceString substitution =>
    Substitution.limitBound ≤ substitution.limit → E .limitTooLarge
  | .insertElement _ v => v.IsOver fun n => P n ∧ n.isShort = true
  | .insertEntry _ v => v.IsOver fun n => P n ∧ n.isShort = true
  | _ => True

theorem Transform.Demands.short {t : Transform} (h : t.Demands P E) :
    t.Demands (fun n => P n ∧ n.isShort = true) E := by
  cases t with
  | sort order maxDepth => exact fun i x hi hx => h i x hi.1 hx.1
  | insertElement index v => exact Value.IsOver.imp h fun n hn => ⟨hn, hn.2⟩
  | insertEntry key v => exact Value.IsOver.imp h fun n hn => ⟨hn, hn.2⟩
  | _ => exact h

theorem Value.IsOver.plainText_ends {v : Value} (hv : v.IsOver fun n => P n ∧ n.isShort = true) :
    Ends E (fun _ => True) v.plainText := by
  have hwritable : v.IsWritable := hv.imp fun n hn => hn.2
  have hjson : v.json = .ok (String.ofList (Json.chars .compact 0 v)) :=
    Json.write_eq_ok_iff.mpr ⟨nofun, (Value.isWritable_iff.mp hwritable).2, rfl⟩
  unfold plainText
  split
  · exact .ok trivial
  · rw [hjson]
    exact .ok trivial

theorem Operation.apply_ends {operation : Operation} (h : operation ≠ .expandKeys) {v : Value}
    (hv : v.IsOver P) : Ends E (·.IsOver P) (operation.apply v) := by
  cases operation with
  | flatten => exact .ok hv.flatten
  | removeEmptyValues => exact .ok hv.withoutEmpty
  | deepMerge => exact .ok hv.mergeElements
  | expandKeys => exact absurd rfl h
  | keys => exact .ok (Value.keysArray_isOver v)
  | values => exact .ok hv.membersArray
  | arraysToObjects => exact .ok hv.arraysToObjects

theorem Substitution.apply_ends {substitution : Substitution}
    (h : limitBound ≤ substitution.limit → E .limitTooLarge) {v : Value} (hv : v.IsOver P) :
    Ends E (·.IsOver P) (substitution.apply v) := by
  unfold Substitution.apply
  split
  · split
    · rename_i hlimit
      exact .error (h hlimit)
    · exact .ok (.string _)
  · exact .ok hv

mutual

theorem Transform.apply_ends {P : Number → Prop} (t : Transform)
    (ht : ∀ part ∈ t.parts, part.Demands P E) {v : Value} (hv : v.IsOver P) :
    Ends E (·.IsOver P) (t.apply v) := by
  cases t with
  | operation operation =>
      rw [Transform.apply]
      exact Operation.apply_ends (ht _ List.mem_cons_self) hv
  | select query => exact (ht _ List.mem_cons_self).elim
  | mutate query chain => exact (ht _ List.mem_cons_self).elim
  | delete query => exact (ht _ List.mem_cons_self).elim
  | remove query => exact (ht _ List.mem_cons_self).elim
  | flattenKeys rootName =>
      rw [Transform.apply]
      exact .ok (Key.flatten_isOver hv rootName)
  | deleteKeys regex =>
      rw [Transform.apply]
      exact .ok (hv.deleteKeys regex)
  | eachKey chain =>
      have hchain := (List.forall_mem_cons.mp ht).2
      rw [Transform.apply]
      refine Value.mapKeys_ends (fun key => ?_) hv
      exact (Chain.apply_ends chain (fun part hpart => (hchain part hpart).short)
        (.string key)).bind fun w hw => hw.plainText_ends
  | eachValue chain =>
      have hchain := (List.forall_mem_cons.mp ht).2
      rw [Transform.apply]
      exact Value.mapMembers_ends (fun w hw => Chain.apply_ends chain hchain hw) hv
  | visitKeys chain maxDepth =>
      have hchain := (List.forall_mem_cons.mp ht).2
      rw [Transform.apply]
      refine Value.walk_ends (fun key => ?_) (fun w hw => .ok hw) _ hv
      exact (Chain.apply_ends chain (fun part hpart => (hchain part hpart).short)
        (.string key)).bind fun w hw => hw.plainText_ends
  | visitValues chain maxDepth =>
      have hchain := (List.forall_mem_cons.mp ht).2
      rw [Transform.apply]
      exact Value.walk_ends (fun key => .ok trivial)
        (fun w hw => Chain.apply_ends chain hchain hw) _ hv
  | sort order maxDepth =>
      rw [Transform.apply]
      exact Value.sort_ends (ht _ List.mem_cons_self) order maxDepth hv
  | replaceString substitution =>
      rw [Transform.apply]
      exact Substitution.apply_ends (ht _ List.mem_cons_self) hv
  | wrapArray =>
      rw [Transform.apply]
      exact .ok (.array (List.forall_mem_singleton.mpr hv))
  | wrapObject key =>
      rw [Transform.apply]
      exact .ok (.object (List.nodup_singleton key) (List.forall_mem_singleton.mpr hv))
  | insertElement index w =>
      rw [Transform.apply]
      have hw : w.IsOver P := (ht _ List.mem_cons_self).imp fun n hn => hn.1
      exact .ok (hv.insertElement index hw)
  | insertEntry key w =>
      rw [Transform.apply]
      have hw : w.IsOver P := (ht _ List.mem_cons_self).imp fun n hn => hn.1
      exact .ok (hv.insertEntry key hw)

theorem Chain.apply_ends {P : Number → Prop} (chain : Chain)
    (hchain : ∀ part ∈ Chain.parts chain, part.Demands P E) {v : Value} (hv : v.IsOver P) :
    Ends E (·.IsOver P) (Chain.apply chain v) := by
  cases chain with
  | nil =>
      rw [Chain.apply]
      exact .ok hv
  | cons t rest =>
      obtain ⟨ht, hrest⟩ := List.forall_mem_append.mp hchain
      have hfirst := t.apply_ends ht hv
      rw [Chain.apply]
      cases hresult : t.apply v with
      | error e => exact .error (hfirst.of_eq_error hresult)
      | ok w => exact Chain.apply_ends rest hrest (hfirst.of_eq_ok hresult)

end

namespace Chain

theorem apply_cons (t : Transform) (rest : Chain) (v : Value) :
    apply (t :: rest) v = t.apply v >>= apply rest := by
  rw [apply]
  cases t.apply v <;> rfl

theorem apply_singleton (t : Transform) : apply [t] = t.apply := by
  funext v
  rw [apply_cons]
  cases t.apply v with
  | error fault => rfl
  | ok w => exact apply.eq_1 w

end Chain

end Reshape
