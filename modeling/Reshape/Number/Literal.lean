import Reshape.Number.Read

namespace Reshape.Number

open Reshape.Text

/-- The longest run of characters of a class, and what follows it. -/
def takeRun (p : Char → Bool) (cs : List Char) : List Char × List Char :=
  (cs.takeWhile p, cs.dropWhile p)

/-- The integer part without its sign. -/
def takeWhole : List Char → Option (List Char × List Char)
  | [] => none
  | c :: rest =>
    if c == '0' then some (['0'], rest)
    else if isAsciiDigit c then
      let (ds, rest) := takeRun isAsciiDigit rest
      some (c :: ds, rest)
    else none

/-- A point and at least one digit, or nothing. -/
def takePointDigits : List Char → List Char × List Char
  | '.' :: rest =>
    let (ds, left) := takeRun isAsciiDigit rest
    if ds.isEmpty then ([], '.' :: rest) else ('.' :: ds, left)
  | cs => ([], cs)

/-- The sign of an exponent, as it is written. -/
def takeSignChars : List Char → List Char × List Char
  | '+' :: rest => (['+'], rest)
  | '-' :: rest => (['-'], rest)
  | cs => ([], cs)

/-- An exponent mark, perhaps a sign, and at least one digit, or nothing. -/
def takePower : List Char → List Char × List Char
  | [] => ([], [])
  | c :: rest =>
    let (sign, digits) := takeSignChars rest
    let (ds, left) := takeRun isAsciiDigit digits
    if (c == 'e' || c == 'E') && !ds.isEmpty then (c :: sign ++ ds, left)
    else ([], c :: rest)

/-- The sign of a literal, as it is written. -/
def takeMinus : List Char → List Char × List Char
  | '-' :: rest => (['-'], rest)
  | cs => ([], cs)

/-- The longest literal at the front of a text, and what follows it. -/
def takeLiteral? (cs : List Char) : Option (List Char × List Char) :=
  let (sign, rest) := takeMinus cs
  match takeWhole rest with
  | none => none
  | some (whole, rest) =>
    let (fraction, rest) := takePointDigits rest
    let (power, rest) := takePower rest
    some (sign ++ whole ++ fraction ++ power, rest)

theorem append_takeRun (p : Char → Bool) (cs : List Char) :
    (takeRun p cs).1 ++ (takeRun p cs).2 = cs :=
  List.takeWhile_append_dropWhile

theorem append_of_takeWhole {cs ds rest : List Char} (h : takeWhole cs = some (ds, rest)) :
    cs = ds ++ rest ∧ ds ≠ [] := by
  cases cs with
  | nil => simp [takeWhole] at h
  | cons c cs =>
    have hrun := append_takeRun isAsciiDigit cs
    simp only [takeWhole] at h
    split at h
    · rename_i hc
      cases h
      simp_all
    · split at h
      · cases h
        simp [hrun]
      · cases h

theorem append_takePointDigits (cs : List Char) :
    (takePointDigits cs).1 ++ (takePointDigits cs).2 = cs := by
  unfold takePointDigits
  split
  · rename_i rest
    have hrun := append_takeRun isAsciiDigit rest
    dsimp only
    split
    · rfl
    · simp [hrun]
  · rfl

theorem append_takeSignChars (cs : List Char) :
    (takeSignChars cs).1 ++ (takeSignChars cs).2 = cs := by
  unfold takeSignChars
  split <;> rfl

theorem append_takePower (cs : List Char) : (takePower cs).1 ++ (takePower cs).2 = cs := by
  cases cs with
  | nil => rfl
  | cons c rest =>
    have hsign := append_takeSignChars rest
    have hrun := append_takeRun isAsciiDigit (takeSignChars rest).2
    simp only [takePower]
    split
    · simp [hrun, hsign]
    · rfl

theorem append_takeMinus (cs : List Char) : (takeMinus cs).1 ++ (takeMinus cs).2 = cs := by
  unfold takeMinus
  split <;> rfl

theorem append_of_takeLiteral? {cs literal rest : List Char}
    (h : takeLiteral? cs = some (literal, rest)) : cs = literal ++ rest ∧ literal ≠ [] := by
  have hminus := append_takeMinus cs
  simp only [takeLiteral?] at h
  split at h
  · cases h
  · rename_i whole after hwhole
    have hpoint := append_takePointDigits after
    have hpower := append_takePower (takePointDigits after).2
    obtain ⟨hrest, hne⟩ := append_of_takeWhole hwhole
    cases h
    rw [hrest, ← hpoint, ← hpower] at hminus
    exact ⟨by simpa using hminus.symm, by simp [hne]⟩

theorem length_lt_of_takeLiteral? {cs literal rest : List Char}
    (h : takeLiteral? cs = some (literal, rest)) : rest.length < cs.length := by
  obtain ⟨hcs, hne⟩ := append_of_takeLiteral? h
  have hpos := List.length_pos_iff.2 hne
  rw [hcs, List.length_append]
  omega

end Reshape.Number
