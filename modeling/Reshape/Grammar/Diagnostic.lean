import Reshape.Grammar.Reader
import Reshape.Text.Line

namespace Reshape.Grammar

open Reshape.Text

structure Diagnostic where
  /-- The kind of text that was read. -/
  rule : String
  text : String
  summary : String
  position : Position
  expected : List String
  /-- The line at fault with a mark under the column. -/
  context : Option String
  suggestion : Option String
deriving Repr

namespace Diagnostic

def message (d : Diagnostic) : String :=
  "Failed to parse " ++ d.rule ++ " `" ++ d.text ++ "`: " ++ d.summary ++
    " (line " ++ Nat.repr d.position.line ++ ", column " ++ Nat.repr d.position.column ++ ")" ++
    (match d.context with
      | some context => "\n" ++ context
      | none => "") ++
    (match d.suggestion with
      | some suggestion => "\nSuggestion: " ++ suggestion
      | none => "")

/-- A text without anything to read. -/
def blank (rule text : String) : Diagnostic where
  rule := rule
  text := text
  summary := "Empty input"
  position := Position.start
  expected := []
  context := none
  suggestion := none

end Diagnostic

/-- The name of what a row offers. -/
def offerName {T : Type} (name : T → String) : Option T → String
  | some t => name t
  | none => "$END"

/-- How many alternatives a suggestion names. -/
def alternativesShown : Nat :=
  5

def suggestExpected (expected : List String) : Option String :=
  if expected.isEmpty then none
  else
    some ("Expected one of: " ++ ", ".intercalate (expected.take alternativesShown) ++
      (if expected.length > alternativesShown then
        " (and " ++ Nat.repr (expected.length - alternativesShown) ++ " more)"
      else ""))

/-- Advice for a character that is often the fault itself. -/
def suggestForChar (c : Char) : Option String :=
  if c == '"' || c == '\'' then some "Check for unclosed string"
  else if c == '\\' then
    some "Backslash escapes are only allowed inside quoted strings"
  else none

/-- A line of a text with a mark under one of its columns. -/
def pointAt (cs : List Char) (p : Position) : Option String :=
  match (lines cs)[p.line - 1]? with
  | some line =>
    some ("  " ++ String.ofList (trimRight line) ++ "\n  " ++
      String.ofList (List.replicate (p.column - 1) ' ') ++ "^")
  | none => none

namespace Unexpected

def summary : Unexpected → String
  | token text => "Unexpected token '" ++ String.ofList text ++ "'"
  | character c => "Unexpected character '" ++ String.singleton c ++ "'"
  | ending => "Unexpected end of input"

def suggestion (expected : List String) : Unexpected → Option String
  | character c => (suggestForChar c).or (suggestExpected expected)
  | _ => suggestExpected expected

end Unexpected

def Failure.diagnostic {T : Type} (name : T → String) (rule text : String)
    (failure : Failure T) : Diagnostic :=
  let position := Position.ofOffset text.toList failure.offset
  let expected := failure.expected.map (offerName name)
  { rule, text, position, expected,
    summary := failure.unexpected.summary
    context := pointAt text.toList position
    suggestion := failure.unexpected.suggestion expected }

/-- Reads a text that must hold more than blanks. -/
def Language.readText {T S R : Type} (language : Language T S R) (name : T → String)
    (rule text : String) : Except Diagnostic R :=
  if text.toList.all isBlank then .error (.blank rule text)
  else (language.read text.toList).mapError (Failure.diagnostic name rule text)

end Reshape.Grammar
