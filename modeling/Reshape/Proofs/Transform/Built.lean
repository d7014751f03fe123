import Reshape.Proofs.Transform.Arguments
import Reshape.Proofs.Value.Entries
import Reshape.Transform.Build

namespace Reshape.Match

section Built

variable [Tools]

/-- The arguments that the transform of a match is built from. -/
def built : Match → Arguments Built
  | mk name bindings => ⟨name, builtBindings bindings, Built.names⟩

theorem build_eq_run (m : Match) : m.build = Builder.run m.built := by
  cases m with
  | mk name bindings => rw [build, built]

theorem find?_builtBindings (bindings : List (String × Binding (List Match))) (name : String) :
    Entries.find? (builtBindings bindings) name =
      (Entries.find? bindings name).map builtBinding := by
  induction bindings with
  | nil => rfl
  | cons entry rest ih =>
    obtain ⟨other, binding⟩ := entry
    rw [builtBindings, Entries.find?, Entries.find?, ih]
    split <;> rfl

theorem value_built (m : Match) (name : String) :
    m.built.value name = m.arguments.value name := by
  cases m with
  | mk function bindings =>
    unfold Arguments.value Arguments.binding built arguments
    simp only [Match.bindings, Match.name, find?_builtBindings]
    cases Entries.find? bindings name with
    | none => rfl
    | some binding => cases binding <;> rfl

theorem function_built (m : Match) : m.built.function = m.arguments.function := by
  cases m
  rfl

theorem string_built (m : Match) (name : String) :
    m.built.string name = m.arguments.string name :=
  Arguments.string_eq_of_value_eq m.function_built m.value_built name

theorem expression_built (m : Match) (name : String) :
    m.built.expression name =
      (m.arguments.expression name).map fun calls => ⟨calls.map Match.name, buildAll calls⟩ := by
  cases m with
  | mk function bindings =>
    unfold Arguments.expression Arguments.binding built arguments
    simp only [Match.bindings, Match.name, find?_builtBindings]
    cases Entries.find? bindings name with
    | none => rfl
    | some binding => cases binding <;> rfl

theorem mem_keys_built (m : Match) (name : String) :
    name ∈ Entries.keys m.built.bindings ↔ name ∈ Entries.keys m.bindings := by
  cases m with
  | mk function bindings =>
    rw [← Entries.isSome_find?_iff, ← Entries.isSome_find?_iff, built, find?_builtBindings,
      Option.isSome_map]
    rfl

end Built

theorem find?_of_expression {m : Match} {name : String} {calls : List Match}
    (h : m.arguments.expression name = .ok calls) :
    m.bindings.find? name = some (.expression calls) := by
  unfold Arguments.expression Arguments.binding arguments at h
  grind

theorem expression_mem {m : Match} {name : String} {calls : List Match}
    (h : m.arguments.expression name = .ok calls) :
    (name, .expression calls) ∈ m.bindings :=
  Entries.mem_of_find? (find?_of_expression h)

theorem value_mem {m : Match} {name : String} {v : Value}
    (h : m.arguments.value name = .ok v) : (name, .value v) ∈ m.bindings := by
  refine Entries.mem_of_find? ?_
  unfold Arguments.value Arguments.binding arguments at h
  dsimp only at h
  cases hfind : m.bindings.find? name with
  | none => simp [hfind] at h
  | some binding =>
      cases binding with
      | value w => simp_all
      | expression calls => simp [hfind] at h

end Reshape.Match
