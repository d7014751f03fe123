import Reshape.Grammar.Diagnostic
import Reshape.Grammar.Quotation
import Reshape.Key.Basic
import Reshape.Text.Digit

namespace Reshape.Key

open Reshape.Grammar Reshape.Text

inductive Terminal where
  | doubleQuoted
  | singleQuoted
  | ident
  | index
  | dot
  | openBracket
  | closeBracket
deriving DecidableEq, Repr

namespace Terminal

def name : Terminal → String
  | doubleQuoted => "DOUBLE_QUOTED"
  | singleQuoted => "SINGLE_QUOTED"
  | ident => "IDENT"
  | index => "INDEX"
  | dot => "DOT"
  | openBracket => "LSQB"
  | closeBracket => "RSQB"

end Terminal

/-- The characters that end a bare identifier. -/
def isIdentChar (c : Char) : Bool :=
  !isBlank c && c != '.' && c != '[' && c != ']' && c != '"' && c != '\''

/-- The longest run of characters of a class, if there is one. -/
def takeSome? (p : Char → Bool) (cs : List Char) : Option (List Char × List Char) :=
  match cs.takeWhile p with
  | [] => none
  | run => some (run, cs.dropWhile p)

def takeChar? (expected : Char) : List Char → Option (List Char × List Char)
  | [] => none
  | c :: rest => if c = expected then some ([c], rest) else none

def take? : Terminal → List Char → Option (List Char × List Char)
  | .doubleQuoted => takeQuotation? '"'
  | .singleQuoted => takeQuotation? '\''
  | .ident => takeSome? isIdentChar
  | .index => takeSome? isAsciiDigit
  | .dot => takeChar? '.'
  | .openBracket => takeChar? '['
  | .closeBracket => takeChar? ']'

def scanOne (cs : List Char) : Option Terminal → Option (Scanned Terminal)
  | some t => (take? t cs).map fun (text, rest) => ⟨t, text, rest⟩
  | none => none

/-- The first terminal of a row that stands at the front of a text. -/
def scan (row : Row Terminal) (cs : List Char) : Option (Scanned Terminal) :=
  row.findSome? (scanOne cs)

/-- A segment as it is parsed: an index by its digits. -/
inductive Part where
  | ident (key : String)
  | index (digits : List Char)
deriving DecidableEq, Repr

/-- Where a reader stands, with the parts behind it. -/
inductive State where
  | start
  | afterDot (done : List Part)
  | inBracket (done : List Part)
  /-- Before a closing bracket. -/
  | beforeClose (done : List Part)
  | between (done : List Part)

/-- What may come next, by the names in ascending order. -/
def expected : State → Row Terminal
  | .start => [some .ident, some .openBracket]
  | .afterDot _ => [some .ident]
  | .inBracket _ => [some .doubleQuoted, some .index, some .singleQuoted]
  | .beforeClose _ => [some .closeBracket]
  | .between _ => [none, some .dot, some .openBracket]

/-- The part that stands in brackets. -/
def bracketed? (token : Token Terminal) : Option Part :=
  match token.terminal with
  | .doubleQuoted => some (.ident (String.ofList (unescapeChars '"' (content token.text))))
  | .singleQuoted => some (.ident (String.ofList (unescapeChars '\'' (content token.text))))
  | .index => some (.index token.text)
  | _ => none

def step (state : State) (token : Token Terminal) : Except (Row Terminal) State :=
  match state, token.terminal with
  | .start, .ident => .ok (.between [.ident (String.ofList token.text)])
  | .start, .openBracket => .ok (.inBracket [])
  | .afterDot done, .ident => .ok (.between (done ++ [.ident (String.ofList token.text)]))
  | .inBracket done, _ =>
    match bracketed? token with
    | some part => .ok (.beforeClose (done ++ [part]))
    | none => .error (expected state)
  | .beforeClose done, .closeBracket => .ok (.between done)
  | .between done, .dot => .ok (.afterDot done)
  | .between done, .openBracket => .ok (.inBracket done)
  | _, _ => .error (expected state)

def finish : State → Except (Row Terminal) (List Part)
  | .between done => .ok done
  | state => .error (expected state)

theorem append_of_takeSome? {p : Char → Bool} {cs text rest : List Char}
    (h : takeSome? p cs = some (text, rest)) : cs = text ++ rest ∧ text ≠ [] := by
  unfold takeSome? at h
  split at h
  · cases h
  · rename_i hne
    cases h
    exact ⟨(List.takeWhile_append_dropWhile).symm, hne⟩

theorem append_of_takeChar? {expected : Char} {cs text rest : List Char}
    (h : takeChar? expected cs = some (text, rest)) : cs = text ++ rest ∧ text ≠ [] := by
  unfold takeChar? at h
  split at h
  · cases h
  · split at h <;> cases h
    simp

theorem append_of_take? {t : Terminal} {cs text rest : List Char}
    (h : take? t cs = some (text, rest)) : cs = text ++ rest ∧ text ≠ [] := by
  cases t <;> simp only [take?] at h <;>
    first
    | exact append_of_takeQuotation? h
    | exact append_of_takeSome? h
    | exact append_of_takeChar? h

theorem append_of_scan {row : Row Terminal} {cs : List Char} {found : Scanned Terminal}
    (h : scan row cs = some found) : cs = found.text ++ found.rest ∧ found.text ≠ [] := by
  obtain ⟨offer, _, hoffer⟩ := List.exists_of_findSome?_eq_some h
  cases offer with
  | none => cases hoffer
  | some t =>
    obtain ⟨⟨text, rest⟩, htake, heq⟩ := Option.map_eq_some_iff.1 hoffer
    cases heq
    exact append_of_take? htake

theorem scan_shortens {row : Row Terminal} {cs : List Char} {found : Scanned Terminal}
    (h : scan row cs = some found) : found.rest.length < cs.length := by
  obtain ⟨hcs, hne⟩ := append_of_scan h
  have hpos := List.length_pos_iff.2 hne
  rw [hcs, List.length_append]
  omega

def language : Language Terminal State (List Part) where
  isSkipped := fun _ => false
  terminals :=
    [some .doubleQuoted, some .singleQuoted, some .ident, some .index, some .dot,
      some .openBracket, some .closeBracket]
  scan := scan
  scan_shortens := scan_shortens
  start := .start
  expected := expected
  listed := fun row => row.filter Option.isSome
  step := step
  finish := finish

/-- The parts of a flat key. -/
def parse (text : String) : Except Diagnostic (List Part) :=
  language.readText Terminal.name "flat key" text

/-- Why a text is not read as a flat key. -/
inductive ReadError where
  | malformed (diagnostic : Diagnostic)
  /-- An index has more digits than are read. -/
  | indexTooLong (digits : Nat)

def Part.segment : Part → Except ReadError Segment
  | ident key => .ok (.ident key)
  | index digits =>
    if Decimal.digitLimit < digits.length then .error (.indexTooLong digits.length)
    else .ok (.index (Decimal.value digits))

/-- Reads a flat key. -/
def read (text : String) : Except ReadError Key :=
  match parse text with
  | .error d => .error (.malformed d)
  | .ok parts => parts.mapM Part.segment

end Reshape.Key
