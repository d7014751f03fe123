import Reshape.Fault
import Reshape.Text.Word

namespace Reshape

namespace Key

/-- One step of the way: into an object by key or into an array by index. -/
inductive Segment where
  | ident (key : String)
  | index (i : Int)
deriving DecidableEq, Repr

end Key

/-- The steps from the root on. -/
abbrev Key :=
  List Key.Segment

namespace Key

open Reshape.Text

/-- Whether a key is written without brackets and quotes. -/
def isBare (key : String) : Bool :=
  !key.toList.isEmpty && key.toList.all fun c => c == '_' || isAsciiAlphanumeric c

/-- A backslash before each backslash and each double quote. -/
def escapeChar (c : Char) : List Char :=
  if c == '\\' || c == '"' then ['\\', c] else [c]

namespace Segment

def isBare? : Segment → Option Bool
  | ident key => some (Key.isBare key)
  | index _ => none

/-- Whether a segment has few enough digits to be written. -/
def isShort : Segment → Bool
  | ident _ => true
  | index i => Decimal.isShort i

/-- A segment behind others, however long. -/
def chars : Segment → List Char
  | ident key =>
    if Key.isBare key then '.' :: key.toList
    else ['[', '"'] ++ key.toList.flatMap escapeChar ++ ['"', ']']
  | index i => '[' :: Decimal.signedDigits i ++ [']']

/-- A segment at the front, where a bare key needs no dot. -/
def firstChars (segment : Segment) : List Char :=
  match segment with
  | ident key => if Key.isBare key then key.toList else segment.chars
  | index _ => segment.chars

end Segment

def chars : Key → List Char
  | [] => []
  | first :: rest => first.firstChars ++ rest.flatMap Segment.chars

/-- The flat key of a way, however long its indices are. -/
def spelling (key : Key) : String :=
  String.ofList key.chars

/-- The flat key of a way, unless an index has too many digits. -/
def text (key : Key) : Except Fault String :=
  if key.all Segment.isShort then .ok key.spelling else .error .integerTooLong

/-- The position in a list that an index means, where negative ones count from the
end. -/
def position? (length : Nat) (index : Int) : Option Nat :=
  let i := if index < 0 then index + length else index
  if 0 ≤ i ∧ i < length then some i.toNat else none

def get? (key : Key) (index : Int) : Option Segment :=
  (position? key.length index).bind (key[·]?)

end Key

end Reshape
