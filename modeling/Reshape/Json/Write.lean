import Reshape.Power
import Reshape.Text.Quoted
import Reshape.Value.Basic

namespace Reshape.Json

/-- How the items of a container are set apart. -/
inductive Layout where
  | compact
  | indented (width : Nat)
deriving DecidableEq, Repr

namespace Layout

/-- What stands before an item at a level of nesting. -/
def lineBreak : Layout → Nat → List Char
  | compact, _ => []
  | indented width, level => '\n' :: List.replicate (width * level) ' '

/-- The first width that does not fit a machine word. -/
def widthBound : Nat :=
  twoTo 63

def isTooWide : Layout → Bool
  | compact => false
  | indented width => widthBound ≤ width

def afterColon : Layout → List Char
  | compact => []
  | indented _ => [' ']

end Layout

def escapeChar (c : Char) : List Char :=
  if c == '"' then ['\\', '"']
  else if c == '\\' then ['\\', '\\']
  else if c == '\n' then ['\\', 'n']
  else if c == '\r' then ['\\', 'r']
  else if c == '\t' then ['\\', 't']
  else if c == '\u000c' then ['\\', 'f']
  else if c == '\u0008' then ['\\', 'b']
  else if c.toNat < 0x20 then '\\' :: 'u' :: Text.hexadecimal 4 c.toNat
  else [c]

def stringChars (s : String) : List Char :=
  '"' :: s.toList.flatMap escapeChar ++ ['"']

mutual

/-- The text of a document that stands at a level of nesting, however long its numerals
and its indentation are. -/
def chars (layout : Layout) (level : Nat) : Value → List Char
  | .null => ['n', 'u', 'l', 'l']
  | .bool true => ['t', 'r', 'u', 'e']
  | .bool false => ['f', 'a', 'l', 's', 'e']
  | .number n => n.chars
  | .string s => stringChars s
  | .array [] => ['[', ']']
  | .array (v :: vs) =>
    '[' :: layout.lineBreak (level + 1) ++ chars layout (level + 1) v ++
      moreItems layout (level + 1) vs ++ layout.lineBreak level ++ [']']
  | .object [] => ['\x7b', '\x7d']
  | .object ((k, v) :: es) =>
    '\x7b' :: layout.lineBreak (level + 1) ++ stringChars k ++ ':' :: layout.afterColon ++
      chars layout (level + 1) v ++ moreEntries layout (level + 1) es ++
      layout.lineBreak level ++ ['\x7d']
  | .bare x => x.chars

def moreItems (layout : Layout) (level : Nat) : List Value → List Char
  | [] => []
  | v :: vs =>
    ',' :: layout.lineBreak level ++ chars layout level v ++ moreItems layout level vs

def moreEntries (layout : Layout) (level : Nat) : List (String × Value) → List Char
  | [] => []
  | (k, v) :: es =>
    ',' :: layout.lineBreak level ++ stringChars k ++ ':' :: layout.afterColon ++
      chars layout level v ++ moreEntries layout level es

end

/-- The text of a document. A string alone has no use for the indentation. -/
def write (v : Value) (layout : Layout) : Except Fault String :=
  if layout.isTooWide && !v.isString then .error .indentTooLarge
  else if v.isShort then .ok (String.ofList (chars layout 0 v))
  else .error .integerTooLong

end Reshape.Json

namespace Reshape.Value

/-- The text of a document on one line. -/
def json (v : Value) : Except Fault String :=
  Json.write v .compact

/-- A string itself, and anything else as its text on one line. -/
def plainText : Value → Except Fault String
  | string s => .ok s
  | v => v.json

end Reshape.Value
