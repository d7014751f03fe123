import Reshape.Pattern.Basic

/-!
Matching by trying alternatives in order and going back. A match is a run from one
place of a text to another; what is still to be matched behind a part is passed on as a
function, so that a part is tried in other ways when the rest fails.
-/

namespace Reshape.Pattern

open Reshape.Text

/-- A place of a text, with what the groups have matched on the way to it. -/
structure Cursor where
  /-- The characters before the place, the nearest first. -/
  before : List Char
  after : List Char
  /-- The texts of the groups, the latest first. -/
  captures : List (Nat × List Char)

namespace Cursor

def start (cs : List Char) : Cursor :=
  ⟨[], cs, []⟩

def capture? (cursor : Cursor) (group : Nat) : Option (List Char) :=
  (cursor.captures.find? fun e => e.1 == group).map Prod.snd

/-- The place behind the next character. -/
def next? (cursor : Cursor) : Option (Char × Cursor) :=
  match cursor.after with
  | [] => none
  | c :: rest => some (c, { cursor with before := c :: cursor.before, after := rest })

/-- The place a number of characters earlier. -/
def back? (cursor : Cursor) : Nat → Option Cursor
  | 0 => some cursor
  | n + 1 =>
    match cursor.before with
    | [] => none
    | c :: rest => back? { cursor with before := rest, after := c :: cursor.after } n

/-- The text between a place and a later one. -/
def upTo (cursor later : Cursor) : List Char :=
  cursor.after.take (cursor.after.length - later.after.length)

end Cursor

namespace Anchor

/-- Whether the place lies between a word character and another or an end. The empty
text has no such places, and no others either. -/
def atBoundary (alphabet : Alphabet) (cursor : Cursor) : Bool :=
  (cursor.before.head?.any (isWordIn alphabet)) != (cursor.after.head?.any (isWordIn alphabet))

def holds (anchor : Anchor) (cursor : Cursor) : Bool :=
  match anchor with
  | textStart => cursor.before.isEmpty
  | lineStart => cursor.before.isEmpty || cursor.before.head? == some '\n'
  | textEnd => cursor.after.isEmpty
  | lastLineEnd => cursor.after.isEmpty || cursor.after == ['\n']
  | lineEnd => cursor.after.isEmpty || cursor.after.head? == some '\n'
  | wordBoundary alphabet => atBoundary alphabet cursor
  | noWordBoundary alphabet =>
    !(cursor.before.isEmpty && cursor.after.isEmpty) && !atBoundary alphabet cursor

end Anchor

/-- What is left to do behind a part: to finish a match at a place, or to fail. -/
abbrev Continuation :=
  Cursor → Option Cursor

/-- Takes one character that satisfies a test. -/
def takeOne (test : Char → Bool) (cursor : Cursor) (next : Continuation) : Option Cursor :=
  match cursor.next? with
  | some (c, later) => if test c then next later else none
  | none => none

/-- Takes a text, character by character. -/
def takeAll (same : Char → Char → Bool) (text : List Char) (cursor : Cursor)
    (next : Continuation) : Option Cursor :=
  match text with
  | [] => next cursor
  | t :: rest => takeOne (same t) cursor fun later => takeAll same rest later next

def firstOf (first : Option Cursor) (second : Unit → Option Cursor) : Option Cursor :=
  match first with
  | some cursor => some cursor
  | none => second ()

/-- Rounds of a body. `count` rounds are done, and `last` is what was left of the text
at the start of the last one that was not compulsory: a round that does not move on is
the last. The fuel bounds the number of rounds. -/
def takeRounds (body : Cursor → Continuation → Option Cursor) (least : Nat)
    (most : Option Nat) (reluctant : Bool) (next : Continuation) :
    Nat → Nat → Option Nat → Cursor → Option Cursor
  | 0, _, _, cursor => next cursor
  | fuel + 1, count, last, cursor =>
    let left := cursor.after.length
    if count < least then
      body cursor (takeRounds body least most reluctant next fuel (count + 1) last)
    else if most.any (· ≤ count) || last == some left then next cursor
    else
      let goOn (_ : Unit) : Option Cursor :=
        body cursor (takeRounds body least most reluctant next fuel (count + 1) (some left))
      if reluctant then firstOf (next cursor) goOn
      else firstOf (goOn ()) fun _ => next cursor

/-- Matches a node at a place and goes on behind it. -/
def matchNode : Node → Cursor → Continuation → Option Cursor
  | .empty, cursor, next => next cursor
  | .oneOf negated members casing, cursor, next =>
    takeOne (fun c => isMember members casing c != negated) cursor next
  | .any newlineToo, cursor, next => takeOne (fun c => newlineToo || c != '\n') cursor next
  | .anchor place, cursor, next => if place.holds cursor then next cursor else none
  | .group index body, cursor, next =>
    matchNode body cursor fun later =>
      next { later with captures := (index, cursor.upTo later) :: later.captures }
  | .reference index casing _, cursor, next =>
    match cursor.capture? index with
    | none => none
    | some text => takeAll casing.same text cursor next
  | .conditional index yes no, cursor, next =>
    if (cursor.capture? index).isSome then matchNode yes cursor next
    else matchNode no cursor next
  | .both first second, cursor, next =>
    matchNode first cursor fun later => matchNode second later next
  | .either first second, cursor, next =>
    firstOf (matchNode first cursor next) fun _ => matchNode second cursor next
  | .rounds least most manner body, cursor, next =>
    let fuel := least + cursor.after.length + 2
    match manner with
    | .greedy => takeRounds (matchNode body) least most false next fuel 0 none cursor
    | .reluctant => takeRounds (matchNode body) least most true next fuel 0 none cursor
    | .possessive =>
      match takeRounds (matchNode body) least most false some fuel 0 none cursor with
      | some later => next later
      | none => none
  | .look behind negated body, cursor, next =>
    let from? := if behind then cursor.back? body.width.least else some cursor
    let found := from?.bind fun place => matchNode body place some
    match found with
    | some later => if negated then none else next { cursor with captures := later.captures }
    | none => if negated then next cursor else none
  | .settled body, cursor, next =>
    match matchNode body cursor some with
    | some later => next later
    | none => none

/-- A match: where it begins and where it ends. -/
structure Found where
  start : Cursor
  finish : Cursor

/-- The match that begins at a place; it must move on if told so. -/
def matchAt (node : Node) (mustMove : Bool) (cursor : Cursor) : Option Cursor :=
  matchNode node cursor fun later =>
    if mustMove && later.after.length == cursor.after.length then none else some later

/-- The first match at or behind a place. -/
def searchFrom (node : Node) (mustMove : Bool) (before : List Char) :
    List Char → Option Found
  | [] =>
    let cursor : Cursor := ⟨before, [], []⟩
    (matchAt node mustMove cursor).map (Found.mk cursor)
  | c :: rest =>
    let cursor : Cursor := ⟨before, c :: rest, []⟩
    match matchAt node mustMove cursor with
    | some finish => some ⟨cursor, finish⟩
    | none => searchFrom node false (c :: before) rest

namespace Regex

/-- Whether a text has a match somewhere. -/
def isIn (regex : Regex) (text : String) : Bool :=
  (searchFrom regex.node false [] text.toList).isSome

end Regex

end Reshape.Pattern
