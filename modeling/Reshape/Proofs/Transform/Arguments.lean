import Reshape.Pattern.Template
import Reshape.Proofs.Outcome
import Reshape.Proofs.Value.Entries
import Reshape.Tools
import Reshape.Transform.Arguments

namespace Reshape

open Pattern (Regex Template)

variable {α E : Type} {e : Pattern.Error}

/-- An error that is none of those that a malformed pattern or replacement has. -/
def Pattern.Error.IsExceptional (e : Pattern.Error) : Prop :=
  e.typeName ≠ "error"

namespace Arguments

variable {arguments : Arguments E}

/-! ### Getters have errors of their own -/

/-- What a getter says of an argument that it does not take. -/
inductive Refuses (arguments : Arguments E) (name : String) : BuildError → Prop
  | missing (h : name ∉ Entries.keys arguments.bindings) :
      Refuses arguments name (.missing arguments.function name)
  | notAnExpression {v : Value} (hname : name = "expression")
      (h : arguments.value name = .ok v) :
      Refuses arguments name (.notAnExpression arguments.function name v)
  | notAValue (calls : List String) :
      Refuses arguments name (.notAValue arguments.function name calls)
  | notOfKind (kind : String) (v : Value) :
      Refuses arguments name (.notOfKind arguments.function name kind v)
  | notUnsigned (n : Number) : Refuses arguments name (.notUnsigned arguments.function name n)
  | neitherKeyNorIndex (v : Value) :
      Refuses arguments name (.neitherKeyNorIndex arguments.function name v)

/-- A getter takes an argument or refuses it. -/
abbrev Answers (arguments : Arguments E) (name : String) (x : Except BuildError α) : Prop :=
  Ends (arguments.Refuses name) (fun _ => True) x

theorem answers_binding (name : String) : arguments.Answers name (arguments.binding name) := by
  unfold binding
  split
  · exact .ok trivial
  · rename_i hfind
    refine .error (.missing fun hmem => ?_)
    rw [← Entries.isSome_find?_iff, hfind] at hmem
    cases hmem

theorem answers_expression :
    arguments.Answers "expression" (arguments.expression "expression") := by
  unfold expression
  split
  · rename_i reason herror
    exact .error ((answers_binding "expression").of_eq_error herror)
  · exact .ok trivial
  · rename_i v hbinding
    exact .error (.notAnExpression rfl (by rw [value, hbinding]))

theorem answers_value (name : String) : arguments.Answers name (arguments.value name) := by
  unfold value
  split
  · rename_i reason herror
    exact .error ((answers_binding name).of_eq_error herror)
  · exact .ok trivial
  · exact .error (.notAValue _)

theorem answers_ofKind (name kind : String) (project : Value → Option α) :
    arguments.Answers name (arguments.ofKind name kind project) := by
  unfold ofKind
  split
  · rename_i reason herror
    exact .error ((answers_value name).of_eq_error herror)
  · split
    · exact .ok trivial
    · exact .error (.notOfKind kind _)

theorem answers_string (name : String) : arguments.Answers name (arguments.string name) :=
  answers_ofKind name "string" Value.string?

theorem answers_unsigned (name : String) : arguments.Answers name (arguments.unsigned name) := by
  have hnumber : arguments.Answers name (arguments.number name) :=
    answers_ofKind name "number" Value.number?
  unfold unsigned
  split
  · rename_i reason herror
    exact .error (hnumber.of_eq_error herror)
  · split
    · exact .ok trivial
    · exact .error (.notUnsigned _)

theorem answers_keyOrIndex (name : String) :
    arguments.Answers name (arguments.keyOrIndex name) := by
  unfold keyOrIndex
  split
  · rename_i reason herror
    exact .error ((answers_value name).of_eq_error herror)
  · exact .ok trivial
  · split
    · exact .ok trivial
    · exact .error (.neitherKeyNorIndex _)

theorem Answers.ne_exceptional {name : String} {x : Except BuildError α}
    (hx : arguments.Answers name x) : x ≠ .error (.exceptional e) :=
  fun h => nomatch hx.of_eq_error h

@[simp]
theorem expression_ne_exceptional :
    arguments.expression "expression" ≠ .error (.exceptional e) :=
  answers_expression.ne_exceptional

@[simp]
theorem value_ne_exceptional (name : String) :
    arguments.value name ≠ .error (.exceptional e) :=
  (answers_value name).ne_exceptional

@[simp]
theorem string_ne_exceptional (name : String) :
    arguments.string name ≠ .error (.exceptional e) :=
  (answers_string name).ne_exceptional

@[simp]
theorem unsigned_ne_exceptional (name : String) :
    arguments.unsigned name ≠ .error (.exceptional e) :=
  (answers_unsigned name).ne_exceptional

@[simp]
theorem keyOrIndex_ne_exceptional (name : String) :
    arguments.keyOrIndex name ≠ .error (.exceptional e) :=
  (answers_keyOrIndex name).ne_exceptional

/-! ### What leaks -/

/-- The arguments of a function have a pattern or a replacement whose error leaks. The
arguments that are read before it are all right. -/
inductive Leaks [Tools] (arguments : Arguments E) : Pattern.Error → Prop
  | keyPattern {pattern : String} {e : Pattern.Error}
      (hfunction : arguments.function = "delete_keys")
      (hpattern : arguments.string "pattern" = .ok pattern)
      (hread : Regex.read Tools.charNamed? pattern = .error e) (he : e.IsExceptional) :
      Leaks arguments e
  | searchPattern {pattern replacement : String} {limit : Nat} {e : Pattern.Error}
      (hfunction : arguments.function = "replace_string")
      (hpattern : arguments.string "regex" = .ok pattern)
      (hreplacement : arguments.string "replacement" = .ok replacement)
      (hlimit : arguments.unsigned "limit" = .ok limit)
      (hread : Regex.read Tools.charNamed? pattern = .error e) (he : e.IsExceptional) :
      Leaks arguments e
  | replacement {pattern replacement : String} {limit : Nat} {regex : Regex}
      {e : Pattern.Error} (hfunction : arguments.function = "replace_string")
      (hpattern : arguments.string "regex" = .ok pattern)
      (hreplacement : arguments.string "replacement" = .ok replacement)
      (hlimit : arguments.unsigned "limit" = .ok limit)
      (hregex : Regex.read Tools.charNamed? pattern = .ok regex)
      (hread : Template.read regex replacement = .error e) (he : e.IsExceptional) :
      Leaks arguments e

/-- The functions that build a chain before they read anything else. -/
def chainFunctions : List String :=
  ["each_key", "each_value", "visit_keys", "visit_values"]

/-- An expression is among the arguments of a function that builds its chain. -/
inductive Takes (arguments : Arguments E) (inner : E) : Prop
  | each (hfunction : arguments.function ∈ chainFunctions)
      (hexpression : arguments.expression "expression" = .ok inner)
  | mutate {query : String} (hfunction : arguments.function = "mutate")
      (hquery : arguments.string "query" = .ok query)
      (hexpression : arguments.expression "expression" = .ok inner)

theorem string_eq_of_value_eq {F : Type} {arguments : Arguments E} {others : Arguments F}
    (hfunction : arguments.function = others.function)
    (hvalue : ∀ name, arguments.value name = others.value name) (name : String) :
    arguments.string name = others.string name := by
  rw [string, string, ofKind, ofKind, hfunction, hvalue]

theorem unsigned_eq_of_value_eq {F : Type} {arguments : Arguments E} {others : Arguments F}
    (hfunction : arguments.function = others.function)
    (hvalue : ∀ name, arguments.value name = others.value name) (name : String) :
    arguments.unsigned name = others.unsigned name := by
  rw [unsigned, unsigned, number, number, ofKind, ofKind, hfunction, hvalue]

/-- What leaks depends on the function and its values only. -/
theorem Leaks.of_value_eq [Tools] {F : Type} {arguments : Arguments E} {others : Arguments F}
    (hfunction : arguments.function = others.function)
    (hvalue : ∀ name, arguments.value name = others.value name) (h : arguments.Leaks e) :
    others.Leaks e := by
  have hstring := string_eq_of_value_eq hfunction hvalue
  have hunsigned := unsigned_eq_of_value_eq hfunction hvalue
  cases h with
  | keyPattern hname hpattern hread he =>
    exact .keyPattern (hfunction ▸ hname) (hstring _ ▸ hpattern) hread he
  | searchPattern hname hpattern hreplacement hlimit hread he =>
    exact .searchPattern (hfunction ▸ hname) (hstring _ ▸ hpattern) (hstring _ ▸ hreplacement)
      (hunsigned _ ▸ hlimit) hread he
  | replacement hname hpattern hreplacement hlimit hregex hread he =>
    exact .replacement (hfunction ▸ hname) (hstring _ ▸ hpattern) (hstring _ ▸ hreplacement)
      (hunsigned _ ▸ hlimit) hregex hread he

end Arguments

end Reshape
