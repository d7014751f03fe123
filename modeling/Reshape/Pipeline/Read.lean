import Reshape.Grammar.Diagnostic
import Reshape.Pipeline.Basic
import Reshape.Pipeline.Token

namespace Reshape.Pipeline

open Reshape.Grammar

/-- A call whose arguments are being read, with the calls before it in its pipeline. -/
structure OpenCall where
  earlier : List Call
  name : String
  done : List Argument
  /-- The label of the argument that comes next. -/
  label : Option String

namespace OpenCall

/-- The calls up to this one when its arguments are complete. -/
def close (opened : OpenCall) : List Call :=
  opened.earlier ++ [.mk opened.name opened.done]

/-- Adds the argument that has been read. -/
def add (opened : OpenCall) (term : Term) : OpenCall :=
  { opened with done := opened.done ++ [.mk opened.label term], label := none }

end OpenCall

/-- A container of a literal that is still open. -/
inductive Bracket where
  | array
  | object
deriving DecidableEq, Repr

/-- Where a reader stands in an open container. -/
inductive Slot where
  | firstItem
  | item
  | firstKey
  | key
  | colon
  | entryValue
deriving DecidableEq, Repr

/-- Where a reader stands in the innermost pipeline or literal. -/
inductive Place where
  /-- Before a call. -/
  | call (earlier : List Call)
  | afterName (earlier : List Call) (name : String)
  /-- Behind a name at the front of an argument, which may turn out to be its label. -/
  | afterFirstName (name : String)
  /-- Behind a call with parentheses. -/
  | afterCall (calls : List Call)
  | firstArgument
  | argument
  | labelled
  /-- In a literal, of which a part is written. -/
  | literal (brackets : List Bracket) (written : List Char) (slot : Slot)
  /-- Behind a literal, or behind an item of one. -/
  | afterLiteral (brackets : List Bracket) (written : List Char)

/-- Where a reader stands, with the calls that are open around it, innermost first. -/
structure State where
  outer : List OpenCall
  place : Place

namespace Slot

/-- What may come next, by the names in ascending order. -/
def expected : Slot → Row Terminal
  | firstItem =>
    [some .falseWord, some .openBrace, some .openBracket, some .nullWord, some .number,
      some .closeBracket, some .string, some .trueWord]
  | item | entryValue =>
    [some .falseWord, some .openBrace, some .openBracket, some .nullWord, some .number,
      some .string, some .trueWord]
  | firstKey => [some .closeBrace, some .string]
  | key => [some .string]
  | colon => [some .colon]

end Slot

namespace Place

/-- What may come next, by the names in ascending order. -/
def expected : Place → Row Terminal
  | call _ => [some .name]
  | afterName _ _ =>
    [none, some .comma, some .dot, some .openParen, some .name, some .closeParen]
  | afterFirstName _ =>
    [some .comma, some .dot, some .equal, some .openParen, some .name, some .closeParen]
  | afterCall _ => [none, some .comma, some .dot, some .name, some .closeParen]
  | firstArgument =>
    [some .falseWord, some .openBrace, some .openBracket, some .name, some .nullWord,
      some .number, some .closeParen, some .string, some .trueWord]
  | argument | labelled =>
    [some .falseWord, some .openBrace, some .openBracket, some .name, some .nullWord,
      some .number, some .string, some .trueWord]
  | literal _ _ slot => slot.expected
  | afterLiteral _ _ =>
    [some .comma, some .closeBrace, some .closeParen, some .closeBracket]

end Place

/-- Ends an argument, of which only a comma or a closing parenthesis may tell. Outside
all calls nothing may follow a pipeline. -/
def endArgument (outer : List OpenCall) (term : Term) (terminal : Terminal) :
    Except (Row Terminal) State :=
  match outer, terminal with
  | [], _ => .error [none]
  | opened :: outer, .comma => .ok ⟨opened.add term :: outer, .argument⟩
  | opened :: outer, .closeParen => .ok ⟨outer, .afterCall (opened.add term).close⟩
  | _ :: _, _ => .error [some .comma, some .closeParen]

/-- Goes on behind the calls of a pipeline. -/
def followCalls (outer : List OpenCall) (calls : List Call) (token : Token Terminal) :
    Except (Row Terminal) State :=
  match token.terminal with
  | .dot => .ok ⟨outer, .call calls⟩
  | .name => .ok ⟨outer, .afterName calls (String.ofList token.text)⟩
  | terminal => endArgument outer (.pipeline calls) terminal

/-- Goes on behind the name of a call. -/
def followName (outer : List OpenCall) (earlier : List Call) (name : String)
    (token : Token Terminal) : Except (Row Terminal) State :=
  match token.terminal with
  | .openParen => .ok ⟨⟨earlier, name, [], none⟩ :: outer, .firstArgument⟩
  | _ => followCalls outer (earlier ++ [.mk name []]) token

/-- The place behind the first token of a literal, or of an item of one. -/
def beginLiteral? (brackets : List Bracket) (written : List Char) (terminal : Terminal) :
    Option Place :=
  match terminal with
  | .number | .string | .trueWord | .falseWord | .nullWord =>
    some (.afterLiteral brackets written)
  | .openBracket => some (.literal (.array :: brackets) written .firstItem)
  | .openBrace => some (.literal (.object :: brackets) written .firstKey)
  | _ => none

/-- The place behind a token in an open container. -/
def stepSlot? (brackets : List Bracket) (written : List Char) (slot : Slot)
    (terminal : Terminal) : Option Place :=
  match slot, terminal with
  | .firstItem, .closeBracket => some (.afterLiteral (brackets.drop 1) written)
  | .firstItem, _ => beginLiteral? brackets written terminal
  | .item, _ => beginLiteral? brackets written terminal
  | .entryValue, _ => beginLiteral? brackets written terminal
  | .firstKey, .closeBrace => some (.afterLiteral (brackets.drop 1) written)
  | .firstKey, .string => some (.literal brackets written .colon)
  | .key, .string => some (.literal brackets written .colon)
  | .colon, .colon => some (.literal brackets written .entryValue)
  | _, _ => none

/-- The place behind a token that follows an item of an open container, or what would
have been possible. -/
def stepAfterItem (bracket : Bracket) (more : List Bracket) (written : List Char)
    (terminal : Terminal) : Except (Row Terminal) Place :=
  match bracket, terminal with
  | .array, .comma => .ok (.literal (bracket :: more) written .item)
  | .array, .closeBracket => .ok (.afterLiteral more written)
  | .array, _ => .error [some .comma, some .closeBracket]
  | .object, .comma => .ok (.literal (bracket :: more) written .key)
  | .object, .closeBrace => .ok (.afterLiteral more written)
  | .object, _ => .error [some .comma, some .closeBrace]

def placeOr (outer : List OpenCall) (place : Place) (next : Option Place) :
    Except (Row Terminal) State :=
  match next with
  | some next => .ok ⟨outer, next⟩
  | none => .error place.expected

/-- Goes on behind a token at the front of an argument. -/
def stepArgument (state : State) (token : Token Terminal) : Except (Row Terminal) State :=
  match state.place, token.terminal, state.outer with
  | .firstArgument, .closeParen, opened :: outer => .ok ⟨outer, .afterCall opened.close⟩
  | .labelled, .name, outer => .ok ⟨outer, .afterName [] (String.ofList token.text)⟩
  | _, .name, outer => .ok ⟨outer, .afterFirstName (String.ofList token.text)⟩
  | place, terminal, outer => placeOr outer place (beginLiteral? [] token.text terminal)

/-- The state behind a label. -/
def setLabel (outer : List OpenCall) (name : String) : State :=
  match outer with
  | [] => ⟨[], .labelled⟩
  | opened :: outer => ⟨{ opened with label := some name } :: outer, .labelled⟩

def step (state : State) (token : Token Terminal) : Except (Row Terminal) State :=
  let outer := state.outer
  match state.place with
  | .call earlier =>
    match token.terminal with
    | .name => .ok ⟨outer, .afterName earlier (String.ofList token.text)⟩
    | _ => .error state.place.expected
  | .afterName earlier name => followName outer earlier name token
  | .afterFirstName name =>
    match token.terminal with
    | .equal => .ok (setLabel outer name)
    | _ => followName outer [] name token
  | .afterCall calls => followCalls outer calls token
  | .firstArgument | .argument | .labelled => stepArgument state token
  | .literal brackets written slot =>
    placeOr outer state.place
      (stepSlot? brackets (written ++ token.lead ++ token.text) slot token.terminal)
  | .afterLiteral [] written =>
    endArgument outer (.literal (String.ofList written)) token.terminal
  | .afterLiteral (bracket :: more) written =>
    (stepAfterItem bracket more (written ++ token.lead ++ token.text) token.terminal).map
      (State.mk outer)

/-- A pipeline can end behind a call that is inside no other. -/
def finishCalls (outer : List OpenCall) (calls : List Call) :
    Except (Row Terminal) (List Call) :=
  match outer with
  | [] => .ok calls
  | _ :: _ => .error [some .comma, some .closeParen]

def finish (state : State) : Except (Row Terminal) (List Call) :=
  match state.place with
  | .afterName earlier name => finishCalls state.outer (earlier ++ [.mk name []])
  | .afterCall calls => finishCalls state.outer calls
  | place => .error place.expected

/-- The offers that a message lists: a name stands for the words as well. -/
def listed (row : Row Terminal) : Row Terminal :=
  (soughtIn row).filter Option.isSome

def language : Language Terminal State (List Call) where
  isSkipped := isSpace
  terminals :=
    [some .number, some .string, some .name, some .trueWord, some .falseWord, some .nullWord,
      some .colon, some .comma, some .dot, some .equal, some .openBrace, some .closeBrace,
      some .openParen, some .closeParen, some .openBracket, some .closeBracket]
  scan := scan
  scan_shortens := scan_shortens
  start := ⟨[], .call []⟩
  expected := fun state => state.place.expected
  listed := listed
  step := step
  finish := finish

/-- Reads a pipeline. -/
def read (text : String) : Except Diagnostic (List Call) :=
  language.readText Terminal.title "expression" text

end Reshape.Pipeline
