import Reshape.Proofs.Transform.Apply
import Reshape.Proofs.Value.Depth
import Reshape.Proofs.Value.Numbers

namespace Reshape

namespace Value

variable {onKey : String → Except Fault String} {onValue : Value → Except Fault Value}

section Walks

theorem walkEntries_pure (levels : Option Nat) (entries : Entries Value) :
    walkEntries pure onValue levels entries =
      entries.mapM fun e => (walk pure onValue levels e.2).map (e.1, ·) :=
  walkEntries_eq_mapM levels entries

theorem walkEntries_zero (entries : Entries Value) :
    walkEntries onKey pure (some 0) entries =
      entries.mapM fun e => (onKey e.1).map (·, e.2) := by
  rw [walkEntries_eq_mapM]
  congr 1
  funext e
  rw [walk_zero]
  cases onKey e.1 <;> rfl

/-- A walk replaces a key before it goes on to the value. What it makes, if it comes to an end, is
the same as if all values came first. -/
theorem toOption_walkEntries (levels : Option Nat) (entries : Entries Value) :
    (walkEntries onKey pure levels entries).toOption =
      ((entries.mapM fun e => (walk onKey pure levels e.2).map (e.1, ·)) >>= fun es =>
        es.mapM fun e => (onKey e.1).map (·, e.2)).toOption := by
  induction entries with
  | nil => rfl
  | cons e rest ih =>
      rw [walkEntries, List.mapM_cons]
      simp only [bind_assoc, pure_bind, List.mapM_cons, toOption_bind, toOption_map, ih,
        Option.bind_map, Function.comp_def, Option.bind_assoc]
      rw [Option.bind_comm]
      congr 1
      funext w
      rw [Option.bind_comm]

/-- A walk that replaces values, one level deeper. -/
theorem walk_values_succ {v : Value} (hv : v.IsDocument) (levels : Option Nat) :
    walk pure onValue (levels.map (· + 1)) v =
      v.mapMembers (walk pure onValue levels) >>= onValue := by
  cases hv with
  | array items =>
      rw [walk_array_succ, walkItems_eq_mapM, mapMembers]
      cases items.mapM (walk pure onValue levels) <;> rfl
  | object entries hkeys =>
      have hends : Ends (fun _ => True) (fun fs : Entries Value => Entries.keys fs =
          Entries.keys entries ∧ ∀ e ∈ fs, True)
          (entries.mapM fun e => (walk pure onValue levels e.2).map (e.1, ·)) :=
        mapM_entries_ends fun e _ => .anyhow _
      rw [walk_object_succ, walkEntries_pure, mapMembers]
      cases hresult : entries.mapM fun e => (walk pure onValue levels e.2).map (e.1, ·) with
      | error fault => rfl
      | ok fs =>
          have hsame : Entries.keys fs = Entries.keys entries := (hends.of_eq_ok hresult).1
          have hlist : Entries.ofList fs = fs := Entries.ofList_eq_self (hsame ▸ hkeys)
          change onValue (object (Entries.ofList fs)) = onValue (object fs)
          rw [hlist]
  | _ => rfl

theorem walk_keys_one (v : Value) : walk onKey pure (some 1) v = v.mapKeys onKey := by
  cases v with
  | array items =>
      have hitems : walkItems onKey pure (some 0) items = pure items := by
        rw [walkItems_eq_mapM, funext walk_zero, List.mapM_pure, List.map_id']
      refine (walk_array_succ (some 0) items).trans ?_
      rw [hitems]
      rfl
  | object entries =>
      refine (walk_object_succ (some 0) entries).trans ?_
      rw [walkEntries_zero, mapKeys]
      cases entries.mapM fun e => (onKey e.1).map (·, e.2) <;> rfl
  | _ => rfl

theorem walk_keys_succ (v : Value) (levels : Option Nat) :
    (walk onKey pure (levels.map (· + 1)) v).toOption =
      (v.mapMembers (walk onKey pure levels) >>= mapKeys onKey).toOption := by
  cases v with
  | array items =>
      rw [walk_array_succ, walkItems_eq_mapM, mapMembers]
      cases items.mapM (walk onKey pure levels) <;> rfl
  | object entries =>
      rw [walk_object_succ, mapMembers, toOption_bind, toOption_walkEntries]
      cases entries.mapM fun e => (walk onKey pure levels e.2).map (e.1, ·) with
      | error fault => rfl
      | ok es =>
          change ((es.mapM fun e => (onKey e.1).map (·, e.2)).toOption.bind fun pairs =>
            some (object (Entries.ofList pairs))) = (mapKeys onKey (object es)).toOption
          rw [mapKeys, toOption_map, Option.map_eq_bind]
          rfl
  | _ => rfl

end Walks

section Sorts

theorem sort_succ (order : SortOrder) (levels : Option Nat) (v : Value) :
    sort order (levels.map (· + 1)) v =
      v.mapMembers (sort order levels) >>= sort order (some 0) := by
  cases v with
  | array items =>
      rw [sort_array_succ, mapMembers, ← sortEach_eq_mapM]
      cases sortEach order levels items <;> rfl
  | object entries =>
      rw [sort_object_succ, mapMembers, ← sortMembers_eq_mapM]
      cases sortMembers order levels entries <;> rfl
  | _ => rfl

end Sorts

end Value

namespace Chain

/-! ### Transforms with a chain, as functions -/

/-- What a chain makes of a key. -/
def applyKey (chain : Chain) (key : String) : Except Fault String :=
  apply chain (.string key) >>= Value.plainText

theorem apply_eachKey (chain : Chain) : (Transform.eachKey chain).apply =
    Value.mapKeys (applyKey chain) := by
  funext v
  rw [Transform.apply]
  rfl

theorem apply_eachValue (chain : Chain) : (Transform.eachValue chain).apply =
    Value.mapMembers (apply chain) := by
  funext v
  rw [Transform.apply]

theorem apply_visitKeys (chain : Chain) (maxDepth : Option Nat) :
    (Transform.visitKeys chain maxDepth).apply =
      Value.walk (applyKey chain) pure (maxDepth.map (· + 1)) := by
  funext v
  rw [Transform.apply]
  rfl

theorem apply_visitValues (chain : Chain) (maxDepth : Option Nat) :
    (Transform.visitValues chain maxDepth).apply =
      Value.walk pure (apply chain) (maxDepth.map (· + 1)) := by
  funext v
  rw [Transform.apply]

theorem apply_sort (order : SortOrder) (maxDepth : Option Nat) :
    (Transform.sort order maxDepth).apply = Value.sort order maxDepth := by
  funext v
  rw [Transform.apply]

/-- A visit goes into the members of a container at the greatest depth, and sorting does not. -/
theorem apply_eq_from_root (chain : Chain) (order : SortOrder) (maxDepth : Option Nat) (v : Value) :
    (Transform.visitValues chain maxDepth).apply v =
        v.walkFrom pure (apply chain) maxDepth 0 ∧
      (Transform.visitKeys chain maxDepth).apply v =
        v.walkFrom (applyKey chain) pure maxDepth 0 ∧
      (Transform.sort order maxDepth).apply v = v.sortFrom order maxDepth 0 := by
  refine ⟨?_, ?_, ?_⟩
  · rw [apply_visitValues, Value.walkFrom_root]
  · rw [apply_visitKeys, Value.walkFrom_root]
  · rw [apply_sort, Value.sortFrom_root]

/-! ### Faults for keys -/

/-- The chain fails in this way for some key, or the text of what it makes of the key does. -/
def FailsForKey (chain : Chain) (fault : Fault) : Prop :=
  ∃ key, applyKey chain key = .error fault

theorem applyKey_ends (chain : Chain) (key : String) :
    Ends (FailsForKey chain) (fun _ => True) (applyKey chain key) := by
  cases hresult : applyKey chain key with
  | ok text => exact .ok trivial
  | error fault => exact .error ⟨key, hresult⟩

theorem visitKeys_ends (chain : Chain) (maxDepth : Option Nat) {v : Value}
    (hv : v.IsOver fun _ => True) :
    Ends (FailsForKey chain) (·.IsOver fun _ => True)
      ((Transform.visitKeys chain maxDepth).apply v) := by
  rw [apply_visitKeys]
  exact Value.walk_ends (applyKey_ends chain) (fun w hw => .ok hw) _ hv

theorem eachValue_eachKey_ends (chain : Chain) (maxDepth : Option Nat) {v : Value}
    (hv : v.IsOver fun _ => True) :
    Ends (FailsForKey chain) (·.IsOver fun _ => True)
      (apply [.eachValue [.visitKeys chain maxDepth], .eachKey chain] v) := by
  rw [apply_cons, apply_eachValue, apply_singleton, apply_singleton, apply_eachKey]
  have hmembers := Value.mapMembers_ends (fun w hw => visitKeys_ends chain maxDepth hw) hv
  exact hmembers.bind fun w hw => Value.mapKeys_ends (applyKey_ends chain) hw

/-! ### One level more -/

theorem visitValues_zero (chain : Chain) {v : Value} (hv : v.IsDocument) :
    apply [.visitValues chain (some 0)] v = apply (.eachValue chain :: chain) v := by
  rw [apply_singleton, apply_cons, apply_visitValues, apply_eachValue,
    Value.walk_values_succ hv, funext Value.walk_zero]

theorem visitValues_succ (chain : Chain) (maxDepth : Option Nat) {v : Value} (hv : v.IsDocument) :
    apply [.visitValues chain (maxDepth.map (· + 1))] v =
      apply (.eachValue [.visitValues chain maxDepth] :: chain) v := by
  rw [apply_singleton, apply_cons, apply_eachValue, apply_singleton, apply_visitValues,
    apply_visitValues, Value.walk_values_succ hv]

theorem visitKeys_zero (chain : Chain) (v : Value) :
    apply [.visitKeys chain (some 0)] v = apply [.eachKey chain] v := by
  rw [apply_singleton, apply_singleton, apply_visitKeys, apply_eachKey]
  exact Value.walk_keys_one v

theorem visitKeys_succ (chain : Chain) (maxDepth : Option Nat) (v : Value) :
    (apply [.visitKeys chain (maxDepth.map (· + 1))] v).toOption =
      (apply [.eachValue [.visitKeys chain maxDepth], .eachKey chain] v).toOption := by
  rw [apply_singleton, apply_cons, apply_eachValue, apply_singleton, apply_singleton,
    apply_visitKeys, apply_visitKeys, apply_eachKey, Value.walk_keys_succ]

theorem sort_succ (order : SortOrder) (maxDepth : Option Nat) (v : Value) :
    apply [.sort order (maxDepth.map (· + 1))] v =
      apply [.eachValue [.sort order maxDepth], .sort order (some 0)] v := by
  rw [apply_singleton, apply_cons, apply_eachValue, apply_singleton, apply_singleton, apply_sort,
    apply_sort, apply_sort, Value.sort_succ]

/-- Visiting the values, or the keys, down to a depth of zero is to replace those of the root, and
visiting them one level deeper is to do so in each member first; sorting one level deeper is to
sort each member first. This holds with and without a bound. Of several keys that a chain fails
for, a visit may come to another one first; with one fault for all keys that makes no
difference. -/
theorem apply_maxDepth (chain : Chain) (order : SortOrder) (maxDepth : Option Nat) {v : Value}
    (hv : v.IsDocument) :
    (apply [.visitValues chain (some 0)] v = apply (.eachValue chain :: chain) v ∧
      apply [.visitValues chain (maxDepth.map (· + 1))] v =
        apply (.eachValue [.visitValues chain maxDepth] :: chain) v) ∧
    (apply [.visitKeys chain (some 0)] v = apply [.eachKey chain] v ∧
      (apply [.visitKeys chain (maxDepth.map (· + 1))] v).toOption =
        (apply [.eachValue [.visitKeys chain maxDepth], .eachKey chain] v).toOption ∧
      ((∀ e f, FailsForKey chain e → FailsForKey chain f → e = f) →
        apply [.visitKeys chain (maxDepth.map (· + 1))] v =
          apply [.eachValue [.visitKeys chain maxDepth], .eachKey chain] v)) ∧
    apply [.sort order (maxDepth.map (· + 1))] v =
      apply [.eachValue [.sort order maxDepth], .sort order (some 0)] v := by
  refine ⟨⟨visitValues_zero chain hv, visitValues_succ chain maxDepth hv⟩,
    ⟨visitKeys_zero chain v, visitKeys_succ chain maxDepth v, fun hfaults => ?_⟩,
    sort_succ order maxDepth v⟩
  have hover : v.IsOver fun _ => True := hv.isOver fun _ _ => trivial
  have hleft := visitKeys_ends chain (maxDepth.map (· + 1)) hover
  rw [← apply_singleton] at hleft
  exact hleft.eq_of_toOption_eq (eachValue_eachKey_ends chain maxDepth hover) hfaults
    (visitKeys_succ chain maxDepth v)

/-- Two keys above an array with an object in it. -/
def nestedKeys : Value :=
  .object [("a", .null), ("b", .array [.object [("c", .bool true)]])]

theorem apply_maxDepth_alikeKeys :
    nestedKeys.IsDocument ∧ (∀ e f, FailsForKey [.operation .keys] e →
      FailsForKey [.operation .keys] f → e = f) ∧
    apply [.eachValue [.visitKeys [.operation .keys] (some 1)], .eachKey [.operation .keys]]
      nestedKeys = .ok (.object [("[]", .array [.object [("[]", .bool true)]])]) := by
  have hdocument : nestedKeys.IsDocument := by
    refine .object _ (by decide) ?_
    simpa using ⟨.null, .array _ (by simpa using .object _ (by decide) (by simpa using .bool true))⟩
  have hfaults : ∀ e f, FailsForKey [.operation .keys] e → FailsForKey [.operation .keys] f →
      e = f := by
    rintro e f ⟨key, hkey⟩ -
    rw [applyKey, apply_singleton, Transform.apply] at hkey
    cases hkey
  have hvisit : apply [.visitKeys [.operation .keys] (some 2)] nestedKeys =
      .ok (.object [("[]", .array [.object [("[]", .bool true)]])]) :=
    rfl
  refine ⟨hdocument, hfaults, ?_⟩
  rw [← hvisit]
  exact ((apply_maxDepth [.operation .keys] .ascending (some 1) hdocument).2.1.2.2 hfaults).symm

end Chain

end Reshape
