import Reshape.Decimal
import Reshape.Double.Extended
import Reshape.Number.Read
import Reshape.Text.Digit

namespace Reshape.Query

open Reshape.Text

inductive Symbol where
  /-- A name, bare or between quotes. -/
  | name (text : String)
  | integer (i : Int)
  | real (x : ExtendedDouble)
  | flag (b : Bool)
  | null
  /-- A word that is kept from being a name. -/
  | reserved (word : String)
  | operator (text : String)
  /-- Two dots. -/
  | descent
  /-- A name between backquotes. -/
  | named (text : String)
  | mark (c : Char)
deriving DecidableEq

namespace Symbol

/-- A symbol as messages show it. -/
def text : Symbol → String
  | name text => text
  | integer i => String.ofList (Decimal.signedDigits i)
  | real x => x.text
  | flag b => if b then "True" else "False"
  | null => "null"
  | reserved word => word
  | operator text => text
  | descent => ".."
  | named text => text
  | mark c => String.singleton c

/-- The class of a symbol as messages name it. -/
def title : Symbol → String
  | name _ => "ID"
  | integer _ => "NUMBER"
  | real _ => "FLOAT"
  | flag _ => "BOOL"
  | null => "NULL"
  | reserved word => if word == "where" then "WHERE" else "WHERENOT"
  | operator _ => "FILTER_OP"
  | descent => "DOUBLEDOT"
  | named _ => "NAMED_OPERATOR"
  | mark c => String.singleton c

end Symbol

/-- A line, counted from one, and the distance from the newline before it. -/
structure Place where
  line : Nat
  column : Nat
deriving DecidableEq

structure Token where
  symbol : Symbol
  place : Place
deriving DecidableEq

/-- Why a query is malformed. -/
inductive SyntaxError where
  | strayChar (c : Char) (place : Place)
  /-- A backslash between quotes with no character to take literally. -/
  | strayBackslash (what : String) (place : Place)
  | unclosed
  | unexpected (token : Token)
  | unexpectedEnd
  | unknownOperator (name : String) (place : Place)
deriving DecidableEq

namespace SyntaxError

/-- Whether already the tokens are broken. -/
def isLexical : SyntaxError → Bool
  | strayChar _ _ => true
  | strayBackslash _ _ => true
  | unclosed => true
  | _ => false

def placeText (place : Place) : String :=
  "line " ++ Nat.repr place.line ++ ", col " ++ Nat.repr place.column

def message : SyntaxError → String
  | strayChar c place =>
    "Error on " ++ placeText place ++ ": Unexpected character: " ++ String.singleton c ++ " "
  | strayBackslash what place =>
    "Error on " ++ placeText place ++ " while lexing " ++ what ++
      ": Unexpected character: \\ "
  | unclosed => "Unexpected EOF in string literal or identifier"
  | unexpected token =>
    "Parse error at " ++ Nat.repr token.place.line ++ ":" ++ Nat.repr token.place.column ++
      " near token " ++ token.symbol.text ++ " (" ++ token.symbol.title ++ ")"
  | unexpectedEnd => "Parse error near the end of string!"
  | unknownOperator name place =>
    "Unknown named operator \x60" ++ name ++ "\x60 at " ++ Nat.repr place.line ++ ":" ++
      Nat.repr place.column

end SyntaxError

/-- What begins with a character: a symbol, how many characters more it has, and how
far behind the first one it is said to stand. -/
structure Lexeme where
  symbol : Symbol
  more : Nat
  shift : Nat

def isNameStart (c : Char) : Bool :=
  ('a' ≤ c && c ≤ 'z') || ('A' ≤ c && c ≤ 'Z') || c == '_'

def isNameChar (c : Char) : Bool :=
  isNameStart c || ('0' ≤ c && c ≤ '9') || c == '@' || c == '-'

def symbolOfWord (word : String) : Symbol :=
  if word == "where" || word == "wherenot" then .reserved word
  else if word == "true" then .flag true
  else if word == "false" then .flag false
  else if word == "null" then .null
  else .name word

/-- A bare name, which may begin with an at sign if a letter follows. -/
def name? (c : Char) (rest : List Char) : Option Lexeme :=
  if isNameStart c || (c == '@' && rest.head?.any isNameStart) then
    let more := rest.takeWhile isNameChar
    some ⟨symbolOfWord (String.ofList (c :: more)), more.length, 0⟩
  else none

def digitsValue (digits : List Char) : Nat :=
  Number.ofDigits (digits.filterMap digitValue?)

/-- A numeral, with a fraction if a digit follows its point. -/
def numeral? (c : Char) (rest : List Char) : Option Lexeme :=
  let negative := c == '-'
  let whole := (if negative then rest else c :: rest).takeWhile isDigit
  let wholeText := if negative then c :: whole else whole
  if whole.isEmpty then none
  else
    match (c :: rest).drop wholeText.length with
    | '.' :: after =>
      let fraction := after.takeWhile isDigit
      let text := wholeText ++ '.' :: fraction
      if fraction.isEmpty then some (integer negative whole wholeText.length)
      else some ⟨.real ((Number.readReal? text).getD .undefined), text.length - 1, 0⟩
    | _ => some (integer negative whole wholeText.length)
where
  integer (negative : Bool) (digits : List Char) (length : Nat) : Lexeme :=
    let n : Int := digitsValue digits
    ⟨.integer (if negative then -n else n), length - 1, 0⟩

def operators : List String :=
  ["=~", "==", "=", "<=", ">=", "!=", "<", ">"]

def operator? (cs : List Char) : Option Lexeme :=
  (operators.find? fun text => text.toList.isPrefixOf cs).map fun text =>
    ⟨.operator text, text.length - 1, 0⟩

/-- What stands between quotes, and the offset of the closing quote. A backslash takes
the next character literally, unless that is a newline. -/
def quoted (quote : Char) (what : String) (start : Place) (offset : Nat) (done : List Char) :
    List Char → Except SyntaxError (List Char × Nat)
  | [] => .error .unclosed
  | '\\' :: c :: rest =>
    if c == '\n' then .error (.strayBackslash what { start with column := start.column + offset })
    else quoted quote what start (offset + 2) (done ++ [c]) rest
  | c :: rest =>
    if c == quote then .ok (done, offset)
    else if c == '\\' then
      .error (.strayBackslash what { start with column := start.column + offset })
    else quoted quote what start (offset + 1) (done ++ [c]) rest

def quotedLexeme (symbol : String → Symbol) (quote : Char) (what : String) (place : Place)
    (rest : List Char) : Except SyntaxError Lexeme :=
  (quoted quote what place 1 [] rest).map fun (text, offset) =>
    ⟨symbol (String.ofList text), offset, offset⟩

def marks : List Char :=
  "*.[]()$,:|&~?@+/-!".toList

def lexeme (place : Place) (c : Char) (rest : List Char) : Except SyntaxError Lexeme :=
  if c == '\'' then quotedLexeme .name c "singlequoted field" place rest
  else if c == '"' then quotedLexeme .name c "doublequoted field" place rest
  else if c == '\x60' then quotedLexeme .named c "backquoted operator" place rest
  else if c == '.' && rest.head? == some '.' then .ok ⟨.descent, 1, 0⟩
  else
    match (name? c rest).or ((numeral? c rest).or (operator? (c :: rest))) with
    | some found => .ok found
    | none =>
      if marks.contains c then .ok ⟨.mark c, 0, 0⟩ else .error (.strayChar c place)

/-- The tokens of a text from a place on. -/
def tokensFrom (place : Place) : List Char → List (Except SyntaxError Token)
  | [] => []
  | c :: rest =>
    if c == ' ' || c == '\t' then tokensFrom { place with column := place.column + 1 } rest
    else if c == '\n' then tokensFrom ⟨place.line + 1, 1⟩ rest
    else
      match lexeme place c rest with
      | .error e => [.error e]
      | .ok found =>
        .ok ⟨found.symbol, { place with column := place.column + found.shift }⟩ ::
          tokensFrom { place with column := place.column + 1 + found.more }
            (rest.drop found.more)
termination_by cs => cs.length
decreasing_by
  · simp
  · simp
  · simp only [List.length_drop, List.length_cons]
    omega

def tokens (query : String) : List (Except SyntaxError Token) :=
  tokensFrom ⟨1, 0⟩ query.toList

end Reshape.Query
