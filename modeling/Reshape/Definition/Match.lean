import Reshape.Definition.Basic
import Reshape.Pipeline.Basic
import Reshape.Pipeline.Literal

namespace Reshape

/-- What is bound to a parameter: a value, or an expression in some form. -/
inductive Binding (E : Type) where
  | value (v : Value)
  | expression (e : E)

/-- The bindings stand in the order in which they were made. -/
inductive Match where
  | mk (name : String) (bindings : List (String × Binding (List Match)))

instance : Inhabited Match :=
  ⟨.mk "" []⟩

namespace Match

def name : Match → String
  | mk name _ => name

def bindings : Match → Entries (Binding (List Match))
  | mk _ bindings => bindings

end Match

/-- Why a call does not match. -/
inductive MatchError where
  | unknownFunction (name : String)
  | invalidSignature (signature : String) (reason : MatchError)
  | duplicateArgument (function label : String)
  | unexpectedNamed (function label shown : String)
  | unexpectedPositional (function shown : String)
  | invalidLiteral (function parameter : String) (reason : Json.Refusal)
  /-- The first of the required parameters without an argument, and the others. -/
  | missing (function first : String) (more : List String)

namespace MatchError

def message : MatchError → String
  | unknownFunction name => "Unknown function \x60" ++ name ++ "\x60"
  | invalidSignature signature reason =>
    "Invalid function signature \x60" ++ signature ++ "\x60: " ++ reason.message
  | duplicateArgument _ label => "Duplicate argument \x60" ++ label ++ "\x60"
  | unexpectedNamed _ _ shown => "Unexpected named argument \x60" ++ shown ++ "\x60"
  | unexpectedPositional _ shown => "Unexpected positional argument \x60" ++ shown ++ "\x60"
  | invalidLiteral _ parameter reason =>
    "Invalid value for argument \x60" ++ parameter ++ "\x60: " ++ reason.message
  | missing _ first more =>
    "Required arguments missing: " ++ ",".intercalate (first :: more)

/-- The function or signature that an error refers to. -/
def function : MatchError → String
  | unknownFunction name => name
  | invalidSignature signature _ => signature
  | duplicateArgument function _ => function
  | unexpectedNamed function _ _ => function
  | unexpectedPositional function _ => function
  | invalidLiteral function _ _ => function
  | missing function _ _ => function

/-- The argument that an error refers to. -/
def argument? : MatchError → Option String
  | unknownFunction _ => none
  | invalidSignature _ reason => reason.argument?
  | duplicateArgument _ label => some label
  | unexpectedNamed _ label _ => some label
  | unexpectedPositional _ _ => none
  | invalidLiteral _ parameter _ => some parameter
  | missing _ first _ => some first

end MatchError

namespace Registry

open Pipeline

/-- The parameter that an argument means: the one with its label, or else the first one
that is not bound yet. -/
def choose (function : String) (remaining : List Parameter)
    (done : Entries (Binding (List Match))) (label : Option String) (term : Term) :
    Except MatchError Parameter :=
  match label with
  | some label =>
    if done.contains label then .error (.duplicateArgument function label)
    else
      match remaining.find? fun p => p.name == label with
      | some p => .ok p
      | none => .error (.unexpectedNamed function label (Argument.mk (some label) term).text)
  | none =>
    match remaining with
    | p :: _ => .ok p
    | [] => .error (.unexpectedPositional function term.text)

/-- The fallbacks of the parameters that are left. -/
def fallbacks (remaining : List Parameter) : Entries (Binding (List Match)) :=
  remaining.filterMap fun p => p.fallback.map fun v => (p.name, .value v)

/-- The parameters left that no call may leave out. -/
def missing (remaining : List Parameter) : List String :=
  (remaining.filter fun p => p.fallback.isNone && p.required).map Parameter.name

/-- The bindings of a call, once all arguments are bound. -/
def complete (function : String) (remaining : List Parameter)
    (done : Entries (Binding (List Match))) :
    Except MatchError (Entries (Binding (List Match))) :=
  match missing remaining with
  | [] => .ok (done ++ fallbacks remaining)
  | first :: more => .error (.missing function first more)

mutual

def matchCall (registry : Registry) : Call → Except MatchError Match
  | .mk name arguments =>
    match registry.find? name with
    | none => .error (.unknownFunction name)
    | some d =>
      match bindArguments registry d.name d.table [] arguments with
      | .ok bindings => .ok (.mk d.name bindings)
      | .error e => .error (.invalidSignature (Call.mk name arguments).text e)

/-- Binds arguments from left to right. -/
def bindArguments (registry : Registry) (function : String) (remaining : List Parameter)
    (done : Entries (Binding (List Match))) :
    List Argument → Except MatchError (Entries (Binding (List Match)))
  | [] => complete function remaining done
  | .mk label term :: rest =>
    match choose function remaining done label term with
    | .error e => .error e
    | .ok p =>
      match resolve registry function p.name term with
      | .error e => .error e
      | .ok binding =>
        bindArguments registry function (remaining.filter fun q => q.name != p.name)
          (done ++ [(p.name, binding)]) rest

/-- What a term denotes. -/
def resolve (registry : Registry) (function parameter : String) :
    Term → Except MatchError (Binding (List Match))
  | .literal text =>
    match decode text with
    | .ok v => .ok (.value v)
    | .error e => .error (.invalidLiteral function parameter e)
  | .pipeline calls => (matchCalls registry calls).map .expression

def matchCalls (registry : Registry) : List Call → Except MatchError (List Match)
  | [] => .ok []
  | call :: rest =>
    match matchCall registry call with
    | .error e => .error e
    | .ok m => (matchCalls registry rest).map (m :: ·)

end

end Registry

end Reshape
