import Reshape.Text.Blank
import Reshape.Text.Case
import Reshape.Text.Digit
import Reshape.Text.Word

namespace Reshape.Pattern

open Reshape.Text

inductive Category where
  | digit
  | space
  | word
deriving DecidableEq, Repr

/-- The characters that are counted among a category: all of them, or those of ASCII. -/
inductive Alphabet where
  | unicode
  | ascii
deriving DecidableEq, Repr

def isWordIn : Alphabet → Char → Bool
  | .unicode, c => isWord c
  | .ascii, c => c == '_' || isAsciiAlphanumeric c

def isBlankIn : Alphabet → Char → Bool
  | .unicode, c => isBlank c
  | .ascii, c => c == ' ' || (0x09 ≤ c.toNat && c.toNat ≤ 0x0D)

def isDigitIn : Alphabet → Char → Bool
  | .unicode, c => isDigit c
  | .ascii, c => isAsciiDigit c

def Category.contains (alphabet : Alphabet) : Category → Char → Bool
  | digit => isDigitIn alphabet
  | space => isBlankIn alphabet
  | word => isWordIn alphabet

/-- A member of a set of characters. Characters are given by their code points. -/
inductive Member where
  | code (n : Nat)
  | range (low high : Nat)
  | category (category : Category) (alphabet : Alphabet) (negated : Bool)
deriving DecidableEq, Repr

/-- A condition on a place of the text. -/
inductive Anchor where
  | textStart
  | lineStart
  | textEnd
  /-- The end of the text, or the place before a newline that ends it. -/
  | lastLineEnd
  | lineEnd
  | wordBoundary (alphabet : Alphabet)
  | noWordBoundary (alphabet : Alphabet)
deriving DecidableEq, Repr

/-- What a repetition prefers: many rounds, few rounds, or many without going back. -/
inductive Manner where
  | greedy
  | reluctant
  | possessive
deriving DecidableEq, Repr

def Manner.operator : Manner → String
  | greedy => "MAX_REPEAT"
  | reluctant => "MIN_REPEAT"
  | possessive => "POSSESSIVE_REPEAT"

/-- Whether a letter stands for its other case too. -/
inductive Casing where
  | exact
  /-- It does if it is a letter of the alphabet. -/
  | ignored (alphabet : Alphabet)
deriving DecidableEq, Repr

/-- The least and the greatest number of characters that something takes. -/
structure Width where
  least : Nat
  most : Option Nat
deriving DecidableEq, Repr

namespace Width

def exactly (n : Nat) : Width :=
  ⟨n, some n⟩

def isFixed (width : Width) : Bool :=
  width.most == some width.least

def add (first second : Width) : Width where
  least := first.least + second.least
  most :=
    match first.most, second.most with
    | some m, some n => some (m + n)
    | _, _ => none

def either (first second : Width) : Width where
  least := min first.least second.least
  most :=
    match first.most, second.most with
    | some m, some n => some (max m n)
    | _, _ => none

def rounds (least : Nat) (most : Option Nat) (body : Width) : Width where
  least := least * body.least
  most :=
    match most, body.most with
    | some 0, _ | _, some 0 => some 0
    | some m, some n => some (m * n)
    | _, _ => none

end Width

inductive Node where
  | empty
  /-- One character of a set, or one that is in none of its members. -/
  | oneOf (negated : Bool) (members : List Member) (casing : Casing)
  /-- Any character; a newline only if told so. -/
  | any (newlineToo : Bool)
  | anchor (place : Anchor)
  | group (index : Nat) (body : Node)
  /-- The text that a group has matched, of which the width is known. -/
  | reference (index : Nat) (casing : Casing) (width : Width)
  /-- One of two nodes, the first if a group has matched. -/
  | conditional (index : Nat) (yes no : Node)
  | both (first second : Node)
  | either (first second : Node)
  | rounds (least : Nat) (most : Option Nat) (manner : Manner) (body : Node)
  /-- What stands before or behind the place, without moving on. -/
  | look (behind negated : Bool) (body : Node)
  /-- The first match of the body and no other. -/
  | settled (body : Node)
deriving Repr

/-- A regular expression: how it is written, and its structure with the number of its
groups and their names. -/
structure Regex where
  text : String
  node : Node
  groups : Nat
  names : List (String × Nat)

/-- Lower case of a single character. -/
def foldChar (c : Char) : Char :=
  if c = 'İ' then 'i' else lowerChar c

/-- Lower case characters that share an upper case one. -/
def sharedCapitals : List (List Nat) :=
  [[0x69, 0x131], [0x73, 0x17F], [0xB5, 0x3BC], [0x345, 0x3B9, 0x1FBE], [0x390, 0x1FD3],
    [0x3B0, 0x1FE3], [0x3B2, 0x3D0], [0x3B5, 0x3F5], [0x3B8, 0x3D1], [0x3BA, 0x3F0],
    [0x3C0, 0x3D6], [0x3C1, 0x3F1], [0x3C2, 0x3C3], [0x3C6, 0x3D5], [0x432, 0x1C80],
    [0x434, 0x1C81], [0x43E, 0x1C82], [0x441, 0x1C83], [0x442, 0x1C84, 0x1C85],
    [0x44A, 0x1C86], [0x463, 0x1C87], [0x1C88, 0xA64B], [0x1E61, 0x1E9B], [0xFB05, 0xFB06]]

/-- A character in lower case, with those that share its upper case. -/
def lowerVariants (c : Char) : List Char :=
  let low := foldChar c
  low :: ((sharedCapitals.filter (·.contains low.toNat)).flatten.map Char.ofNat)

/-- The characters that stand for a character. -/
def Casing.variants : Casing → Char → List Char
  | exact, c => [c]
  | ignored .ascii, c => [lowerAscii c, upperAscii c]
  | ignored .unicode, c =>
    (lowerVariants c).flatMap fun low =>
      low :: ((if low = 'i' then ['İ'] else []) ++ capitalsOf low)

/-- Whether a character repeats another one. -/
def Casing.same : Casing → Char → Char → Bool
  | exact, c, d => c == d
  | ignored .ascii, c, d => lowerAscii c == lowerAscii d
  | ignored .unicode, c, d => foldChar c == foldChar d

def Member.contains : Member → Char → Bool
  | code n, c => c.toNat == n
  | range low high, c => low ≤ c.toNat && c.toNat ≤ high
  | category k alphabet negated, c => k.contains alphabet c != negated

/-- Whether a character is one of a set of members. -/
def isMember (members : List Member) (casing : Casing) (c : Char) : Bool :=
  (casing.variants c).any fun v => members.any (·.contains v)

namespace Node

def sequence (nodes : List Node) : Node :=
  nodes.foldr both empty

/-- One of several nodes, of which there should be at least one. -/
def choice : List Node → Node
  | [] => empty
  | [node] => node
  | node :: rest => either node (choice rest)

def width : Node → Width
  | empty => .exactly 0
  | oneOf _ _ _ => .exactly 1
  | any _ => .exactly 1
  | anchor _ => .exactly 0
  | group _ body => body.width
  | reference _ _ width => width
  | conditional _ yes no => yes.width.either no.width
  | both first second => first.width.add second.width
  | either first second => first.width.either second.width
  | rounds least most _ body => body.width.rounds least most
  | look _ _ _ => .exactly 0
  | settled body => body.width

end Node

end Reshape.Pattern
