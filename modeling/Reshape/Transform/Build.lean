import Reshape.Tools
import Reshape.Transform.Arguments
import Reshape.Transform.Basic

namespace Reshape

/-- An expression with the names of its calls and the chain that they make. -/
structure Built where
  names : List String
  chain : Except BuildError Chain

/-- Takes the arguments in a fixed order. The first one that is wrong gives the error. -/
abbrev Builder :=
  Arguments Built → Except BuildError Transform

namespace Builder

def readQuery [Tools] (text : String) : Except BuildError Query :=
  match Tools.engine.read text with
  | .ok query => .ok query
  | .error e => .error (.defect (.query e))

/-- Errors that only say that a text is malformed become defects. -/
def refuse (defect : Pattern.Error → Defect) (e : Pattern.Error) : BuildError :=
  match e with
  | .malformed _ _ => .defect (defect e)
  | .unusable _ => .defect (defect e)
  | .repeatTooLarge => .exceptional e
  | .numeralTooLong _ => .exceptional e
  | .mixedGlobalAlphabets => .exceptional e
  | .groupNotFound _ => .exceptional e

def readPattern [Tools] (text : String) : Except BuildError Pattern.Regex :=
  match Pattern.Regex.read Tools.charNamed? text with
  | .ok regex => .ok regex
  | .error e => .error (refuse (.regex text) e)

def readReplacement (regex : Pattern.Regex) (text : String) :
    Except BuildError Pattern.Template :=
  match Pattern.Template.read regex text with
  | .ok template => .ok template
  | .error e => .error (refuse (.replacement text regex.text) e)

def readOrder (text : String) : Except BuildError SortOrder :=
  match SortOrder.read? text with
  | some order => .ok order
  | none => .error (.defect (.sortOrder text))

def query [Tools] (arguments : Arguments Built) : Except BuildError Query := do
  readQuery (← arguments.string "query")

/-- The chain of the expression. -/
def chain (arguments : Arguments Built) : Except BuildError Chain := do
  match (← arguments.expression "expression").chain with
  | .ok chain => return chain
  | .error e => throw (arguments.inside "expression" e)

def maxDepth (arguments : Arguments Built) : Except BuildError (Option Nat) :=
  arguments.optional "max_depth" Arguments.unsigned

def operation (o : Operation) : Builder :=
  fun _ => .ok (.operation o)

def select [Tools] : Builder :=
  fun arguments => .select <$> query arguments

/-- The query is read only when both arguments are there. -/
def mutate [Tools] : Builder := fun arguments => do
  let text ← arguments.string "query"
  let chain ← chain arguments
  return .mutate (← readQuery text) chain

def delete [Tools] : Builder :=
  fun arguments => .delete <$> query arguments

def remove [Tools] : Builder :=
  fun arguments => .remove <$> query arguments

def flattenKeys : Builder :=
  fun arguments => .flattenKeys <$> arguments.string "prefix"

def deleteKeys [Tools] : Builder := fun arguments => do
  return .deleteKeys (← readPattern (← arguments.string "pattern"))

def sort : Builder := fun arguments => do
  let order ← readOrder (← arguments.string "order")
  return .sort order (← maxDepth arguments)

def eachKey : Builder :=
  fun arguments => .eachKey <$> chain arguments

def eachValue : Builder :=
  fun arguments => .eachValue <$> chain arguments

def visitKeys : Builder := fun arguments => do
  let chain ← chain arguments
  return .visitKeys chain (← maxDepth arguments)

def visitValues : Builder := fun arguments => do
  let chain ← chain arguments
  return .visitValues chain (← maxDepth arguments)

def replaceString [Tools] : Builder := fun arguments => do
  let pattern ← arguments.string "regex"
  let replacement ← arguments.string "replacement"
  let limit ← arguments.unsigned "limit"
  let regex ← readPattern pattern
  let template ← readReplacement regex replacement
  return .replaceString ⟨regex, replacement, template, limit⟩

def wrapArray : Builder :=
  fun _ => .ok .wrapArray

def wrapObject : Builder :=
  fun arguments => .wrapObject <$> arguments.string "key"

def insert : Builder := fun arguments => do
  match ← arguments.keyOrIndex "key_or_index" with
  | .inl key => return .insertEntry key (← arguments.value "value")
  | .inr index => return .insertElement index (← arguments.value "value")

/-- The builders by the names of the functions. -/
def all [Tools] : List (String × Builder) :=
  [("select", select), ("mutate", mutate), ("delete", delete), ("remove", remove),
    ("flatten", operation .flatten), ("flatten_keys", flattenKeys),
    ("expand_keys", operation .expandKeys),
    ("remove_empty_values", operation .removeEmptyValues),
    ("deep_merge", operation .deepMerge), ("keys", operation .keys),
    ("values", operation .values), ("delete_keys", deleteKeys), ("sort", sort),
    ("arrays_to_objects", operation .arraysToObjects), ("each_key", eachKey),
    ("each_value", eachValue), ("visit_keys", visitKeys), ("visit_values", visitValues),
    ("replace_string", replaceString), ("wrap_array", wrapArray),
    ("wrap_object", wrapObject), ("insert", insert)]

/-- Says in a defect which transformation has it. -/
def nameDefect (name : String) : BuildError → BuildError
  | .defect d => .invalidTransformation name d
  | e => e

/-- Builds the transform of a function. -/
def run [Tools] (arguments : Arguments Built) : Except BuildError Transform :=
  match all.lookup arguments.function with
  | none => .error (.unknownTransformation arguments.function)
  | some builder =>
    match builder arguments with
    | .ok t => .ok t
    | .error e => .error (nameDefect arguments.function e)

end Builder

mutual

def Match.build [Tools] : Match → Except BuildError Transform
  | .mk name bindings => Builder.run ⟨name, builtBindings bindings, Built.names⟩

def builtBindings [Tools] : List (String × Binding (List Match)) → List (String × Binding Built)
  | [] => []
  | (name, binding) :: rest => (name, builtBinding binding) :: builtBindings rest

def builtBinding [Tools] : Binding (List Match) → Binding Built
  | .value v => .value v
  | .expression calls => .expression ⟨calls.map Match.name, buildAll calls⟩

/-- Builds the chain of some matches. -/
def buildAll [Tools] : List Match → Except BuildError Chain
  | [] => .ok []
  | m :: rest =>
    match m.build with
    | .error e => .error e
    | .ok t => (buildAll rest).map (t :: ·)

end

end Reshape
