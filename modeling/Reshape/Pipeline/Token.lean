import Reshape.Grammar.Quotation
import Reshape.Grammar.Reader
import Reshape.Number.Literal
import Reshape.Text.Word

/-!
The tokens of pipelines. The words for truth values and null are names as well; they
are told apart where both a name and a literal may stand.
-/

namespace Reshape.Pipeline

open Reshape.Grammar Reshape.Text

inductive Terminal where
  | number
  | string
  | name
  | trueWord
  | falseWord
  | nullWord
  | colon
  | comma
  | dot
  | equal
  | openBrace
  | closeBrace
  | openParen
  | closeParen
  | openBracket
  | closeBracket
deriving DecidableEq, Repr

namespace Terminal

def title : Terminal → String
  | number => "NUMBER"
  | string => "STRING"
  | name => "NAME"
  | trueWord => "TRUE"
  | falseWord => "FALSE"
  | nullWord => "NULL"
  | colon => "COLON"
  | comma => "COMMA"
  | dot => "DOT"
  | equal => "EQUAL"
  | openBrace => "LBRACE"
  | closeBrace => "RBRACE"
  | openParen => "LPAR"
  | closeParen => "RPAR"
  | openBracket => "LSQB"
  | closeBracket => "RSQB"

def isWord : Terminal → Bool
  | trueWord | falseWord | nullWord => true
  | _ => false

/-- The terminal of a name that is one of the words. -/
def ofName (text : List Char) : Terminal :=
  if text = "true".toList then trueWord
  else if text = "false".toList then falseWord
  else if text = "null".toList then nullWord
  else name

end Terminal

def isNameStart (c : Char) : Bool :=
  ('a' ≤ c && c ≤ 'z') || ('A' ≤ c && c ≤ 'Z') || c == '_'

def isNameChar (c : Char) : Bool :=
  isAsciiAlphanumeric c || c == '_' || c == '-'

/-- The characters that may stand between tokens. -/
def isSpace (c : Char) : Bool :=
  c == ' ' || c == '\t' || c == '\u000c' || c == '\r' || c == '\n'

def takeName? : List Char → Option (List Char × List Char)
  | [] => none
  | c :: rest =>
    if isNameStart c then some (c :: rest.takeWhile isNameChar, rest.dropWhile isNameChar)
    else none

/-- A given text at the front of another, and what follows it. -/
def takeExact? (wanted : List Char) (cs : List Char) : Option (List Char × List Char) :=
  if wanted.isPrefixOf cs then some (wanted, cs.drop wanted.length) else none

def takeString? (cs : List Char) : Option (List Char × List Char) :=
  (takeQuotation? '"' cs).or (takeQuotation? '\'' cs)

def Terminal.take? : Terminal → List Char → Option (List Char × List Char)
  | number => Number.takeLiteral?
  | string => takeString?
  | name => takeName?
  | trueWord => takeExact? ['t', 'r', 'u', 'e']
  | falseWord => takeExact? ['f', 'a', 'l', 's', 'e']
  | nullWord => takeExact? ['n', 'u', 'l', 'l']
  | colon => takeExact? [':']
  | comma => takeExact? [',']
  | dot => takeExact? ['.']
  | equal => takeExact? ['=']
  | openBrace => takeExact? ['\x7b']
  | closeBrace => takeExact? ['\x7d']
  | openParen => takeExact? ['(']
  | closeParen => takeExact? [')']
  | openBracket => takeExact? ['[']
  | closeBracket => takeExact? [']']

def scanOne (cs : List Char) : Option Terminal → Option (Scanned Terminal)
  | some t => (t.take? cs).map fun (text, rest) => ⟨t, text, rest⟩
  | none => none

/-- What is looked for in the text itself: the words only where no name may stand. -/
def soughtIn (row : Row Terminal) : Row Terminal :=
  if row.contains (some .name) then row.filter fun offer => !(offer.any Terminal.isWord)
  else row

/-- Turns a name into the word that it is, if the row offers that word. -/
def retype (row : Row Terminal) (found : Scanned Terminal) : Scanned Terminal :=
  let word := Terminal.ofName found.text
  if found.terminal = .name && row.contains (some word) then { found with terminal := word }
  else found

/-- The first terminal of a row that stands at the front of a text. -/
def scan (row : Row Terminal) (cs : List Char) : Option (Scanned Terminal) :=
  ((soughtIn row).findSome? (scanOne cs)).map (retype row)

theorem append_of_takeName? {cs text rest : List Char} (h : takeName? cs = some (text, rest)) :
    cs = text ++ rest ∧ text ≠ [] := by
  unfold takeName? at h
  split at h
  · cases h
  · split at h <;> cases h
    simp [List.takeWhile_append_dropWhile]

theorem append_of_takeExact? {wanted cs text rest : List Char} (hwanted : wanted ≠ [])
    (h : takeExact? wanted cs = some (text, rest)) : cs = text ++ rest ∧ text ≠ [] := by
  unfold takeExact? at h
  split at h
  · rename_i hprefix
    cases h
    obtain ⟨tail, htail⟩ := List.isPrefixOf_iff_prefix.1 hprefix
    simp [← htail, hwanted]
  · cases h

theorem append_of_takeString? {cs text rest : List Char}
    (h : takeString? cs = some (text, rest)) : cs = text ++ rest ∧ text ≠ [] := by
  rcases Option.or_eq_some_iff.1 h with h | ⟨_, h⟩ <;> exact append_of_takeQuotation? h

theorem append_of_take? {t : Terminal} {cs text rest : List Char}
    (h : t.take? cs = some (text, rest)) : cs = text ++ rest ∧ text ≠ [] := by
  cases t with
  | number => exact Number.append_of_takeLiteral? h
  | string => exact append_of_takeString? h
  | name => exact append_of_takeName? h
  | _ => exact append_of_takeExact? (by simp) h

theorem append_of_scan {row : Row Terminal} {cs : List Char} {found : Scanned Terminal}
    (h : scan row cs = some found) : cs = found.text ++ found.rest ∧ found.text ≠ [] := by
  obtain ⟨plain, hplain, rfl⟩ := Option.map_eq_some_iff.1 h
  obtain ⟨offer, _, hoffer⟩ := List.exists_of_findSome?_eq_some hplain
  have hsame : (retype row plain).text = plain.text ∧ (retype row plain).rest = plain.rest := by
    unfold retype
    dsimp only
    split <;> exact ⟨rfl, rfl⟩
  rw [hsame.1, hsame.2]
  cases offer with
  | none => cases hoffer
  | some t =>
    obtain ⟨⟨text, rest⟩, htake, heq⟩ := Option.map_eq_some_iff.1 hoffer
    cases heq
    exact append_of_take? htake

theorem scan_shortens {row : Row Terminal} {cs : List Char} {found : Scanned Terminal}
    (h : scan row cs = some found) : found.rest.length < cs.length := by
  obtain ⟨hcs, hne⟩ := append_of_scan h
  have hpos := List.length_pos_iff.2 hne
  rw [hcs, List.length_append]
  omega

end Reshape.Pipeline
