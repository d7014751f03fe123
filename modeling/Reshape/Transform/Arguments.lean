import Reshape.Definition.Match
import Reshape.Transform.Error
import Reshape.Value.Sort

namespace Reshape

structure Arguments (E : Type) where
  function : String
  bindings : Entries (Binding E)
  /-- The names of the calls in an expression. -/
  callNames : E → List String

namespace Arguments

variable {E α : Type}

/-- The error of what an argument is made into, as an error of the argument. Of the errors
that are none of the library only those of a value become one. -/
def inside (arguments : Arguments E) (name : String) (reason : BuildError) : BuildError :=
  match reason with
  | .exceptional e =>
    if e.isOfValue then .within arguments.function name reason else reason
  | _ => .within arguments.function name reason

def isPresent (arguments : Arguments E) (name : String) : Bool :=
  arguments.bindings.contains name

def binding (arguments : Arguments E) (name : String) : Except BuildError (Binding E) :=
  match arguments.bindings.find? name with
  | some b => .ok b
  | none => .error (.missing arguments.function name)

def expression (arguments : Arguments E) (name : String) : Except BuildError E :=
  match arguments.binding name with
  | .error e => .error e
  | .ok (.expression e) => .ok e
  | .ok (.value v) => .error (.notAnExpression arguments.function name v)

def value (arguments : Arguments E) (name : String) : Except BuildError Value :=
  match arguments.binding name with
  | .error e => .error e
  | .ok (.value v) => .ok v
  | .ok (.expression e) =>
    .error (.notAValue arguments.function name (arguments.callNames e))

/-- A value of a kind. -/
def ofKind (arguments : Arguments E) (name kind : String) (project : Value → Option α) :
    Except BuildError α :=
  match arguments.value name with
  | .error e => .error e
  | .ok v =>
    match project v with
    | some x => .ok x
    | none => .error (.notOfKind arguments.function name kind v)

def string (arguments : Arguments E) (name : String) : Except BuildError String :=
  arguments.ofKind name "string" Value.string?

def bool (arguments : Arguments E) (name : String) : Except BuildError Bool :=
  arguments.ofKind name "boolean" Value.bool?

def number (arguments : Arguments E) (name : String) : Except BuildError Number :=
  arguments.ofKind name "number" Value.number?

def unsigned (arguments : Arguments E) (name : String) : Except BuildError Nat :=
  match arguments.number name with
  | .error e => .error e
  | .ok n =>
    match n.unsigned? with
    | some k => .ok k
    | none => .error (.notUnsigned arguments.function name n)

def keyOrIndex (arguments : Arguments E) (name : String) : Except BuildError (String ⊕ Nat) :=
  match arguments.value name with
  | .error e => .error e
  | .ok (.string key) => .ok (.inl key)
  | .ok v =>
    match v.number?.bind Number.unsigned? with
    | some index => .ok (.inr index)
    | none => .error (.neitherKeyNorIndex arguments.function name v)

/-- The sort order that a string spells. -/
def order (arguments : Arguments E) (name : String) : Except BuildError SortOrder :=
  match arguments.string name with
  | .error e => .error e
  | .ok text =>
    match SortOrder.read? text with
    | some order => .ok order
    | none => .error (arguments.inside name (.defect (.sortOrder text)))

/-- What an argument is made into, if it is there. -/
def optional (arguments : Arguments E) (name : String)
    (get : Arguments E → String → Except BuildError α) : Except BuildError (Option α) :=
  if arguments.isPresent name then (get arguments name).map some else .ok none

end Arguments

def Match.arguments (m : Match) : Arguments (List Match) :=
  ⟨m.name, m.bindings, fun calls => calls.map Match.name⟩

end Reshape
