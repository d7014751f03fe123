import Reshape.Text.Blank

namespace Reshape.Text

/-- A line and a column, both counted from one. -/
structure Position where
  line : Nat
  column : Nat
deriving DecidableEq, Repr

namespace Position

def start : Position :=
  ⟨1, 1⟩

def advance (p : Position) (c : Char) : Position :=
  if c == '\n' then ⟨p.line + 1, 1⟩ else ⟨p.line, p.column + 1⟩

/-- The position just after a text. -/
def after (cs : List Char) : Position :=
  cs.foldl advance start

/-- The position of the character at an offset. -/
def ofOffset (cs : List Char) (offset : Nat) : Position :=
  after (cs.take offset)

end Position

/-- The pieces between newlines; there is always at least one. -/
def lines : List Char → List (List Char)
  | [] => [[]]
  | c :: rest =>
    if c == '\n' then [] :: lines rest
    else
      match lines rest with
      | [] => [[c]]
      | first :: more => (c :: first) :: more

theorem lines_ne_nil (cs : List Char) : lines cs ≠ [] := by
  cases cs with
  | nil => simp [lines]
  | cons c rest =>
    simp only [lines]
    split
    · simp
    · split <;> simp

/-- The characters that end a line of running text. -/
def isLineEnd (c : Char) : Bool :=
  c == '\n' || c == '\r' || c == '\u000b' || c == '\u000c' || c == '\u001c' || c == '\u001d' ||
    c == '\u001e' || c == '\u0085' || c == '\u2028' || c == '\u2029'

/-- The lines of running text, each with the characters that end it; a carriage
return and a newline after it end a line together. -/
def linesKeepingEnds : List Char → List (List Char)
  | [] => []
  | '\r' :: '\n' :: rest => ['\r', '\n'] :: linesKeepingEnds rest
  | c :: rest =>
    if isLineEnd c then [c] :: linesKeepingEnds rest
    else
      match rest, linesKeepingEnds rest with
      | [], _ => [[c]]
      | _, [] => [[c]]
      | _, first :: more => (c :: first) :: more

/-- Running text with every line indented that holds more than blanks. -/
def indent (margin : List Char) (cs : List Char) : List Char :=
  (linesKeepingEnds cs).flatMap fun line =>
    if line.all isBlank then line else margin ++ line

end Reshape.Text
