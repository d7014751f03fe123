import Reshape.Number.Basic
import Reshape.Text.Blank
import Reshape.Text.Case
import Reshape.Text.Digit
import Reshape.Text.Quoted

namespace Reshape.Number

open Reshape.Text

/-- Blanks that may surround a numeral: all but the information separators. -/
def isNumeralBlank (c : Char) : Bool :=
  isBlank c && !(0x1c ≤ c.toNat && c.toNat ≤ 0x1f)

def trimNumeral (cs : List Char) : List Char :=
  ((cs.dropWhile isNumeralBlank).reverse.dropWhile isNumeralBlank).reverse

/-- The digits after a first one, each with or without an underscore before it. -/
def moreDigits : List Char → List Nat × List Char
  | [] => ([], [])
  | [c] =>
    match digitValue? c with
    | some d => ([d], [])
    | none => ([], [c])
  | c :: c' :: rest =>
    match digitValue? c with
    | some d =>
      let (ds, rest') := moreDigits (c' :: rest)
      (d :: ds, rest')
    | none =>
      if c == '_' then
        match digitValue? c' with
        | some d =>
          let (ds, rest') := moreDigits rest
          (d :: ds, rest')
        | none => ([], c :: c' :: rest)
      else ([], c :: c' :: rest)

/-- A run of digits of any script, perhaps grouped by single underscores, and what follows it. -/
def takeDigits : List Char → List Nat × List Char
  | [] => ([], [])
  | c :: rest =>
    match digitValue? c with
    | some d =>
      let (ds, rest') := moreDigits rest
      (d :: ds, rest')
    | none => ([], c :: rest)

def ofDigits (ds : List Nat) : Nat :=
  ds.foldl (fun n d => 10 * n + d) 0

/-- The sign in front of a numeral, and the rest. -/
def takeSign : List Char → Bool × List Char
  | '-' :: rest => (true, rest)
  | '+' :: rest => (false, rest)
  | cs => (false, cs)

/-- Why a text spells no integer. -/
inductive IntegerError where
  | malformed
  | tooLong (digits : Nat)
deriving DecidableEq, Repr

/-- An integer of no more digits than the limit. The digits are counted before what
stands behind them is looked at, underscores apart. -/
def readInt (cs : List Char) : Except IntegerError Int :=
  let (negative, rest) := takeSign (trimNumeral cs)
  match takeDigits rest with
  | ([], _) => .error .malformed
  | (ds, left) =>
    if left.head? = some '_' then .error .malformed
    else if Decimal.digitLimit < ds.length then .error (.tooLong ds.length)
    else if left.isEmpty then .ok (if negative then -(ofDigits ds : Int) else ofDigits ds)
    else .error .malformed

def readInt? (cs : List Char) : Option Int :=
  (readInt cs).toOption

/-- The exponent at the end of a numeral; zero if there is none. -/
def readExponent? : List Char → Option Int
  | [] => some 0
  | c :: rest =>
    if c == 'e' || c == 'E' then
      let (negative, rest) := takeSign rest
      match takeDigits rest with
      | ([], _) => none
      | (ds, []) => some (if negative then -(ofDigits ds : Int) else ofDigits ds)
      | _ => none
    else none

/-- The fraction of a numeral, and the rest. -/
def takeFraction : List Char → List Nat × List Char
  | '.' :: rest => takeDigits rest
  | cs => ([], cs)

def readReal? (cs : List Char) : Option ExtendedDouble :=
  let (negative, rest) := takeSign (trimNumeral cs)
  let word := rest.map lowerAscii
  if word == "inf".toList || word == "infinity".toList then some (.infinite negative)
  else if word == "nan".toList then some .undefined
  else
    let (whole, rest) := takeDigits rest
    let (fraction, rest) := takeFraction rest
    if whole.isEmpty && fraction.isEmpty then none
    else
      match readExponent? rest with
      | none => none
      | some exponent =>
        match Double.ofDecimal? negative (ofDigits (whole ++ fraction))
            (exponent - (fraction.length : Nat)) with
        | some x => some (.finite x)
        | none => some (.infinite negative)

/-- Why a text is no number. -/
inductive ReadError where
  | notAnInteger (text : String)
  | tooLong (digits : Nat)
  | notAReal (text : String)
  | outOfRange (text : String)
deriving DecidableEq, Repr

namespace ReadError

/-- A quoted integer is shown by its first two hundred characters. -/
def message : ReadError → String
  | notAnInteger text =>
    "invalid literal for int() with base 10: " ++
      String.ofList ((quotedChars text.toList).take 200)
  | tooLong digits => Decimal.tooLongToRead digits
  | notAReal text => "could not convert string to float: " ++ quoted text
  | outOfRange text => "number out of range: " ++ text

end ReadError

def IntegerError.about (text : String) : IntegerError → ReadError
  | malformed => .notAnInteger text
  | tooLong digits => .tooLong digits

/-- A fraction or an exponent makes a numeral a binary64 number. -/
def isRealNumeral (cs : List Char) : Bool :=
  cs.isEmpty || cs.any fun c => c == '.' || c == 'e' || c == 'E'

def read (text : String) : Except ReadError Number :=
  let cs := trim text.toList
  if isRealNumeral cs then
    match readReal? cs with
    | some (.finite x) => .ok (float x)
    | some _ => .error (.outOfRange (String.ofList cs))
    | none => .error (.notAReal (String.ofList cs))
  else
    match readInt cs with
    | .ok i => .ok (int i)
    | .error e => .error (e.about (String.ofList cs))

end Reshape.Number
