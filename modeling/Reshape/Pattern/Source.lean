import Reshape.Pattern.Basic
import Reshape.Pattern.Error

/-!
The text of a pattern cut into pieces, of which a backslash and the character behind it
are one. Reading is one piece ahead, so that a backslash at the end is noticed when the
piece before it is taken.
-/

namespace Reshape.Pattern

inductive Piece where
  | plain (c : Char)
  | escaped (c : Char)
  /-- A backslash at the end. -/
  | dangling
deriving DecidableEq, Repr

namespace Piece

def chars : Piece → List Char
  | plain c => [c]
  | escaped c => ['\\', c]
  | dangling => ['\\']

def text (piece : Piece) : String :=
  String.ofList piece.chars

def width (piece : Piece) : Nat :=
  piece.chars.length

end Piece

def pieces : List Char → List Piece
  | [] => []
  | ['\\'] => [.dangling]
  | '\\' :: c :: rest => .escaped c :: pieces rest
  | c :: rest => .plain c :: pieces rest

/-- What the flags say about the part of a pattern that is being read. -/
structure Flags where
  ignoreCase : Bool := false
  multiline : Bool := false
  dotAll : Bool := false
  /-- Blanks and comments count as nothing. -/
  verbose : Bool := false
  alphabet : Alphabet := .unicode
deriving DecidableEq, Repr

namespace Flags

def casing (flags : Flags) : Casing :=
  if flags.ignoreCase then .ignored flags.alphabet else .exact

/-- The flags with some turned on and off. -/
def change (flags : Flags) (on off : List Char) : Flags where
  ignoreCase := (flags.ignoreCase || on.contains 'i') && !off.contains 'i'
  multiline := (flags.multiline || on.contains 'm') && !off.contains 'm'
  dotAll := (flags.dotAll || on.contains 's') && !off.contains 's'
  verbose := (flags.verbose || on.contains 'x') && !off.contains 'x'
  alphabet :=
    if on.contains 'a' then .ascii else if on.contains 'u' then .unicode else flags.alphabet

end Flags

/-- What is known while a pattern is read. -/
structure Reading where
  offset : Nat := 0
  rest : List Piece
  /-- The characters that have names. -/
  charNamed? : String → Option Char
  flags : Flags := { }
  /-- The flags that are given for the whole pattern. -/
  globalFlags : List Char := []
  /-- The number of the group that opens next. -/
  nextGroup : Nat := 1
  names : List (String × Nat) := []
  /-- The groups that are complete. -/
  complete : List (Nat × Width) := []
  /-- In a look-behind, the number of the group that would have opened next before it. -/
  behindFrom : Option Nat := none
  /-- The groups that conditions refer to by number, and where they first do. -/
  conditions : List (Nat × Nat) := []

abbrev Reader :=
  StateT Reading (Except Error)

namespace Reader

def failAt {α : Type} (offset : Nat) (problem : Problem) : Reader α :=
  throw (.malformed problem offset)

/-- The place of the next piece. -/
def tell : Reader Nat :=
  return (← get).offset

/-- Fails some characters before the place of the next piece. -/
def fail {α : Type} (problem : Problem) (back : Nat) : Reader α := do
  failAt ((← tell) - back) problem

def peek : Reader (Option Piece) :=
  return (← get).rest.head?

def refuseDangling : Reader Unit := do
  if (← peek) = some .dangling then fail .danglingBackslash 0

/-- Takes the next piece. -/
def take : Reader (Option Piece) := do
  let state ← get
  match state.rest with
  | [] => return none
  | piece :: rest =>
    set { state with offset := state.offset + piece.width, rest := rest }
    refuseDangling
    return some piece

/-- Takes the next piece if it is the given character. -/
def takeIf (c : Char) : Reader Bool := do
  if (← peek) = some (.plain c) then
    let _ ← take
    return true
  else
    return false

/-- Takes up to a number of characters of a class. -/
def takeWhile (p : Char → Bool) : Nat → Reader (List Char)
  | 0 => return []
  | n + 1 => do
    match ← peek with
    | some (.plain c) =>
      if p c then
        let _ ← take
        return c :: (← takeWhile p n)
      else
        return []
    | _ => return []

/-- Takes the pieces before a terminator, and it. The fuel is the number of pieces. -/
def takeUntilWith (terminator : Char) (what : String) (before : List Char) :
    Nat → Reader (List Char)
  | 0 => return before
  | fuel + 1 => do
    match ← take with
    | none =>
      if before.isEmpty then fail (.missing what) 0
      else fail (.missing (String.singleton terminator ++ ", unterminated name")) before.length
    | some piece =>
      if piece = .plain terminator then
        if before.isEmpty then fail (.missing what) 1 else return before
      else
        takeUntilWith terminator what (before ++ piece.chars) fuel

def takeUntil (terminator : Char) (what : String) : Reader (List Char) := do
  takeUntilWith terminator what [] ((← get).rest.length + 1)

end Reader

end Reshape.Pattern
