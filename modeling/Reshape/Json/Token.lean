import Reshape.Number.Literal
import Reshape.Text.Line
import Reshape.Value.Basic

/-!
The tokens of JSON text. Scanning stops at the first piece of text that is no token;
whether that piece is at fault is for the reader to say, who may have expected
something else in its place.
-/

namespace Reshape.Json

open Reshape.Text

/-- What is wrong at a place of a text. -/
inductive Problem where
  | valueExpected
  | propertyNameExpected
  | colonExpected
  | commaExpected
  | extraData
  | unterminatedString
  | controlCharacter
  | badEscape
  | badUnicodeEscape
  | byteOrderMark
deriving DecidableEq, Repr

namespace Problem

def message : Problem → String
  | valueExpected => "Expecting value"
  | propertyNameExpected => "Expecting property name enclosed in double quotes"
  | colonExpected => "Expecting ':' delimiter"
  | commaExpected => "Expecting ',' delimiter"
  | extraData => "Extra data"
  | unterminatedString => "Unterminated string starting at"
  | controlCharacter => "Invalid control character at"
  | badEscape => "Invalid \\escape"
  | badUnicodeEscape => "Invalid \\uXXXX escape"
  | byteOrderMark => "Unexpected UTF-8 BOM (decode using utf-8-sig)"

end Problem

/-- Why a text is no document. -/
inductive ReadError where
  | malformed (problem : Problem) (offset : Nat)
  /-- A number that is none of JSON, such as an infinity. -/
  | foreignNumber (name : String)
  | number (error : Number.ReadError)
deriving DecidableEq, Repr

namespace ReadError

def message (text : List Char) : ReadError → String
  | malformed problem offset =>
    let p := Position.ofOffset text offset
    problem.message ++ ": line " ++ Nat.repr p.line ++ " column " ++ Nat.repr p.column ++
      " (char " ++ Nat.repr offset ++ ")"
  | foreignNumber name => name ++ " is not a valid JSON number"
  | number error => error.message

end ReadError

inductive Token where
  | openArray
  | closeArray
  | openObject
  | closeObject
  | colon
  | comma
  | string (s : String)
  /-- Null, a boolean or a number. -/
  | scalar (v : Value)
  /-- A string that does not end well. -/
  | brokenString (error : ReadError)
  | broken (error : ReadError)

structure Lexeme where
  offset : Nat
  token : Token

def isJsonBlank (c : Char) : Bool :=
  c == ' ' || c == '\t' || c == '\n' || c == '\r'

def hexValue? (c : Char) : Option Nat :=
  if '0' ≤ c && c ≤ '9' then some (c.toNat - 48)
  else if 'a' ≤ c && c ≤ 'f' then some (c.toNat - 87)
  else if 'A' ≤ c && c ≤ 'F' then some (c.toNat - 55)
  else none

/-- The number written by four hexadecimal digits. -/
def hexQuad? (a b c d : Char) : Option Nat :=
  match hexValue? a, hexValue? b, hexValue? c, hexValue? d with
  | some a, some b, some c, some d => some (((a * 16 + b) * 16 + c) * 16 + d)
  | _, _, _, _ => none

def isHighSurrogate (n : Nat) : Bool :=
  0xD800 ≤ n && n ≤ 0xDBFF

def isLowSurrogate (n : Nat) : Bool :=
  0xDC00 ≤ n && n ≤ 0xDFFF

/-- The character of a code point. No string holds one half of a surrogate pair: it is replaced, and
keys that differ only in such halves become one. -/
def charOfUnit (n : Nat) : Char :=
  if isHighSurrogate n || isLowSurrogate n then '\uFFFD' else Char.ofNat n

def charOfPair (high low : Nat) : Char :=
  Char.ofNat (0x10000 + (high - 0xD800) * 0x400 + (low - 0xDC00))

/-- What a letter after a backslash stands for. -/
def simpleEscape? (c : Char) : Option Char :=
  match c with
  | '"' => some '"'
  | '\\' => some '\\'
  | '/' => some '/'
  | 'b' => some '\u0008'
  | 'f' => some '\u000c'
  | 'n' => some '\n'
  | 'r' => some '\r'
  | 't' => some '\t'
  | _ => none

/-- A problem, and how many characters are left where it lies. -/
abbrev Located :=
  Problem × Nat

/-- The number of four hexadecimal digits, and what follows them. Something must. -/
def takeQuad (cs : List Char) : Except Located (Nat × List Char) :=
  match cs with
  | a :: b :: c :: d :: rest =>
    match hexQuad? a b c d, rest.isEmpty with
    | some n, false => .ok (n, rest)
    | _, _ => .error (.badUnicodeEscape, cs.length + 1)
  | _ => .error (.badUnicodeEscape, cs.length + 1)

/-- The character of a four-digit escape, given what follows its mark. A high
surrogate takes the escape of a low one with it, if text follows that too. -/
def takeUnicodeEscape (cs : List Char) : Except Located (Char × List Char) :=
  match takeQuad cs with
  | .error e => .error e
  | .ok (high, rest) =>
    if isHighSurrogate high then
      match rest with
      | '\\' :: 'u' :: more =>
        if more.length < 5 then .ok (charOfUnit high, rest)
        else
          match takeQuad more with
          | .error e => .error e
          | .ok (low, rest') =>
            if isLowSurrogate low then .ok (charOfPair high low, rest')
            else .ok (charOfUnit high, rest)
      | _ => .ok (charOfUnit high, rest)
    else .ok (charOfUnit high, rest)

/-- The character of an escape, given what follows the backslash. -/
def takeEscape (opening : Nat) : List Char → Except Located (Char × List Char)
  | [] => .error (.unterminatedString, opening)
  | c :: rest =>
    if c == 'u' then takeUnicodeEscape rest
    else
      match simpleEscape? c with
      | some e => .ok (e, rest)
      | none => .error (.badEscape, rest.length + 2)

theorem length_lt_of_takeQuad {cs rest : List Char} {n : Nat}
    (h : takeQuad cs = .ok (n, rest)) : rest.length < cs.length := by
  unfold takeQuad at h
  split at h
  · split at h <;> cases h
    simp only [List.length_cons]
    omega
  · cases h

theorem length_lt_of_takeUnicodeEscape {cs rest : List Char} {c : Char}
    (h : takeUnicodeEscape cs = .ok (c, rest)) : rest.length < cs.length := by
  unfold takeUnicodeEscape at h
  split at h
  · cases h
  · rename_i high rest' hquad
    have hlt := length_lt_of_takeQuad hquad
    split at h
    · split at h
      · split at h
        · cases h; exact hlt
        · split at h
          · cases h
          · rename_i hlow
            have hlow := length_lt_of_takeQuad hlow
            simp only [List.length_cons] at hlt
            split at h <;> simp only [Except.ok.injEq, Prod.mk.injEq] at h <;> cases h.2
            · omega
            · simpa only [List.length_cons] using hlt
      · cases h; exact hlt
    · cases h; exact hlt

theorem length_lt_of_takeEscape {opening : Nat} {cs rest : List Char} {c : Char}
    (h : takeEscape opening cs = .ok (c, rest)) : rest.length < cs.length := by
  unfold takeEscape at h
  split at h
  · cases h
  · split at h
    · exact Nat.lt_succ_of_lt (length_lt_of_takeUnicodeEscape h)
    · split at h <;> cases h
      exact Nat.lt_succ_self _

/-- The content of a string up to its closing quote, and what follows it. The opening
quote is given by the number of characters from it on. -/
def takeString (opening : Nat) (cs : List Char) : Except Located (List Char × List Char) :=
  match cs with
  | [] => .error (.unterminatedString, opening)
  | c :: rest =>
    if c == '"' then .ok ([], rest)
    else if c == '\\' then
      match _h : takeEscape opening rest with
      | .error e => .error e
      | .ok (e, rest') => (takeString opening rest').map fun (s, left) => (e :: s, left)
    else if c.toNat < 0x20 then .error (.controlCharacter, rest.length + 1)
    else (takeString opening rest).map fun (s, left) => (c :: s, left)
termination_by cs.length
decreasing_by
  · exact Nat.lt_succ_of_lt (length_lt_of_takeEscape _h)
  · exact Nat.lt_succ_self _

/-- The text without a word at its front. -/
def dropWord? : List Char → List Char → Option (List Char)
  | [], cs => some cs
  | w :: ws, c :: cs => if w = c then dropWord? ws cs else none
  | _ :: _, [] => none

/-- Words that are no values of JSON, though they are written like numbers. -/
def foreignNumbers : List String :=
  ["NaN", "Infinity", "-Infinity"]

/-- The words for null and the booleans. -/
def words : List (String × Value) :=
  [("null", .null), ("true", .bool true), ("false", .bool false)]

/-- The value of the word at the front of a text, and what follows it. -/
def takeWord? (cs : List Char) : Option (Value × List Char) :=
  words.findSome? fun (w, v) => (dropWord? w.toList cs).map (v, ·)

/-- A number, or one of the words for a value. -/
def takeScalar (offset : Nat) (cs : List Char) : Except ReadError (Value × List Char) :=
  match takeWord? cs with
  | some found => .ok found
  | none =>
    match foreignNumbers.find? fun w => (dropWord? w.toList cs).isSome with
    | some name => .error (.foreignNumber name)
    | none =>
      match Number.takeLiteral? cs with
      | none => .error (.malformed .valueExpected offset)
      | some (literal, rest) =>
        match Number.read (String.ofList literal) with
        | .ok n => .ok (.number n, rest)
        | .error e => .error (.number e)

/-- The token that a character begins, given the rest of a text, and what follows it.
Nothing is left after a broken token. -/
def takeToken (total : Nat) (c : Char) (rest : List Char) : Token × List Char :=
  if c == '[' then (.openArray, rest)
  else if c == ']' then (.closeArray, rest)
  else if c == '\x7b' then (.openObject, rest)
  else if c == '\x7d' then (.closeObject, rest)
  else if c == ':' then (.colon, rest)
  else if c == ',' then (.comma, rest)
  else if c == '"' then
    match takeString (rest.length + 1) rest with
    | .ok (s, rest') => (.string (String.ofList s), rest')
    | .error (problem, left) => (.brokenString (.malformed problem (total - left)), [])
  else
    match takeScalar (total - (rest.length + 1)) (c :: rest) with
    | .ok (v, rest') => (.scalar v, rest')
    | .error e => (.broken e, [])

theorem length_of_dropWord? {ws cs rest : List Char} (h : dropWord? ws cs = some rest) :
    ws.length + rest.length = cs.length := by
  induction ws generalizing cs with
  | nil => cases h; simp
  | cons w ws ih =>
    cases cs with
    | nil => cases h
    | cons c cs =>
      simp only [dropWord?] at h
      split at h
      · have := ih h
        simp only [List.length_cons]
        omega
      · cases h

theorem length_lt_of_takeWord? {cs rest : List Char} {v : Value}
    (h : takeWord? cs = some (v, rest)) : rest.length < cs.length := by
  obtain ⟨⟨w, v'⟩, hmem, hw⟩ := List.exists_of_findSome?_eq_some h
  obtain ⟨rest', hdrop, heq⟩ := Option.map_eq_some_iff.1 hw
  have hpos : 0 < w.toList.length := by
    simp only [words, List.mem_cons, Prod.mk.injEq, List.not_mem_nil, or_false] at hmem
    rcases hmem with h | h | h <;> simp [h.1]
  cases heq
  have := length_of_dropWord? hdrop
  omega

theorem length_lt_of_takeScalar {offset : Nat} {cs rest : List Char} {v : Value}
    (h : takeScalar offset cs = .ok (v, rest)) : rest.length < cs.length := by
  unfold takeScalar at h
  split at h
  · rename_i hword
    cases h
    exact length_lt_of_takeWord? hword
  · split at h
    · cases h
    · split at h
      · cases h
      · rename_i hlit
        split at h
        · cases h
          exact Number.length_lt_of_takeLiteral? hlit
        · cases h

theorem length_le_of_takeString {opening : Nat} {cs s rest : List Char}
    (h : takeString opening cs = .ok (s, rest)) : rest.length ≤ cs.length := by
  fun_induction takeString opening cs generalizing s with
  | case1 => cases h
  | case2 => cases h; simp
  | case3 => cases h
  | case4 c tail _ _ e rest' hesc ih =>
    cases hrec : takeString opening rest' with
    | error => rw [hrec] at h; cases h
    | ok r =>
      obtain ⟨s', left⟩ := r
      rw [hrec] at h
      cases h
      have hle := ih hrec
      have := length_lt_of_takeEscape hesc
      simp only [List.length_cons]
      omega
  | case5 => cases h
  | case6 c tail _ _ _ ih =>
    cases hrec : takeString opening tail with
    | error => rw [hrec] at h; cases h
    | ok r =>
      obtain ⟨s', left⟩ := r
      rw [hrec] at h
      cases h
      have hle := ih hrec
      simp only [List.length_cons]
      omega

theorem length_takeToken (total : Nat) (c : Char) (rest : List Char) :
    (takeToken total c rest).2.length ≤ rest.length := by
  unfold takeToken
  iterate 6
    split
    · exact Nat.le_refl _
  split
  · split
    · rename_i hstring
      exact length_le_of_takeString hstring
    · exact Nat.zero_le _
  · split
    · rename_i hscalar
      exact Nat.lt_succ_iff.1 (length_lt_of_takeScalar hscalar)
    · exact Nat.zero_le _

/-- The tokens of the end of a text of which `total` characters are known in all. -/
def lexemes (total : Nat) (cs : List Char) : List Lexeme :=
  match cs with
  | [] => []
  | c :: rest =>
    if isJsonBlank c then lexemes total rest
    else
      ⟨total - (rest.length + 1), (takeToken total c rest).1⟩ ::
        lexemes total (takeToken total c rest).2
termination_by cs.length
decreasing_by
  · exact Nat.lt_succ_self _
  · exact Nat.lt_succ_of_le (length_takeToken total c rest)

end Reshape.Json
