import Reshape.Pattern.Match
import Reshape.Pattern.Read

namespace Reshape.Pattern

open Reshape.Text

/-- A part of a replacement. The group with the number zero is the whole match. -/
inductive TemplatePart where
  | literal (c : Char)
  | group (index : Nat)
deriving DecidableEq, Repr

abbrev Template :=
  List TemplatePart

namespace Template

open Reader

/-- A reference by number; `back` characters before the place if there is no such group. -/
def numbered (groups index back : Nat) : Reader TemplatePart := do
  if groups < index then fail (.badReference index) back
  return .group index

/-- A reference between angle brackets. -/
def named (regex : Regex) : Reader TemplatePart := do
  if !(← takeIf '<') then fail (.missing "<") 0
  let name ← takeUntil '>' "group name"
  if isIdentifier name then
    match regex.names.find? fun e => e.1.toList == name with
    | some (_, index) => return .group index
    | none => throw (.groupNotFound (String.ofList name))
  else
    match spelledNumber? name with
    | none => fail (.badName (String.ofList name)) (name.length + 1)
    | some index =>
      if groupLimit ≤ index then fail (.badReference index) (name.length + 1)
      numbered regex.groups index (name.length + 1)

/-- A backslash and digits other than zero: three octal digits for a character, one or
two others for a group. -/
def digits (groups : Nat) (c : Char) : Reader TemplatePart := do
  let all := c :: (← takeWhile isAsciiDigit 1)
  let third ←
    if all.length = 2 && all.all isOctalDigit then takeWhile isOctalDigit 1 else pure []
  if third.isEmpty then numbered groups (Decimal.value all) all.length
  else return .literal (Char.ofNat (← octalEscape (all ++ third)))

/-- The part that a backslash and a character begin. -/
def escape (regex : Regex) (c : Char) : Reader TemplatePart := do
  if c = 'g' then return ← named regex
  if c = '0' then
    return .literal (Char.ofNat (valueInBase 8 (← takeWhile isOctalDigit 2)))
  if isAsciiDigit c then return ← digits regex.groups c
  match controlEscape? c with
  | some n => return .literal (Char.ofNat n)
  | none => failEscape ['\\', c]

/-- A character with a backslash that means nothing keeps the backslash, unless it is a
letter. -/
def isOrdinary (c : Char) : Bool :=
  !isAsciiLetter c && !isAsciiDigit c && (controlEscape? c).isNone

/-- The parts behind some of them. The fuel is the number of pieces. -/
def parts (regex : Regex) (done : Template) : Nat → Reader Template
  | 0 => return done
  | fuel + 1 => do
    match ← take with
    | none => return done
    | some (.plain c) => parts regex (done ++ [.literal c]) fuel
    | some .dangling => return done
    | some (.escaped c) =>
      if isOrdinary c then parts regex (done ++ [.literal '\\', .literal c]) fuel
      else parts regex (done ++ [← escape regex c]) fuel

def whole (regex : Regex) : Reader Template := do
  refuseDangling
  parts regex [] ((← get).rest.length + 1)

/-- Reads a replacement for the matches of a regular expression. -/
def read (regex : Regex) (text : String) : Except Error Template :=
  match (whole regex).run { rest := pieces text.toList, charNamed? := fun _ => none } with
  | .error e => .error e
  | .ok (template, _) => .ok template

/-- The text of a part for a match. A group that took no part in it has none. -/
def partText (found : Found) : TemplatePart → List Char
  | .literal c => [c]
  | .group 0 => found.start.upTo found.finish
  | .group index => (found.finish.capture? index).getD []

def expand (template : Template) (found : Found) : List Char :=
  template.flatMap (partText found)

end Template

namespace Regex

/-- Replaces the matches behind a place from left to right. An empty match is not taken
where the last match was empty too. The fuel bounds the number of matches. -/
def replaceFrom (regex : Regex) (template : Template) (mustMove : Bool) (before : List Char) :
    Nat → List Char → List Char
  | 0, after => after
  | fuel + 1, after =>
    match searchFrom regex.node mustMove before after with
    | none => after
    | some found =>
      let isEmpty := found.start.after.length == found.finish.after.length
      after.take (after.length - found.start.after.length) ++ template.expand found ++
        replaceFrom regex template isEmpty found.finish.before fuel found.finish.after

/-- Replaces the matches in a text, but no more than the limit unless that is zero. -/
def replace (regex : Regex) (template : Template) (limit : Nat) (text : String) : String :=
  let most := 2 * text.toList.length + 2
  String.ofList <|
    regex.replaceFrom template false [] (if limit = 0 then most else min limit most) text.toList

end Regex

end Reshape.Pattern
