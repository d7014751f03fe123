import Reshape.Json.Token

namespace Reshape.Json

open Reshape.Text

/-- A container that is still open: an array by its items so far, in reverse order, or
an object by its entries so far and the key that waits for a value. -/
inductive Frame where
  | items (done : List Value)
  | entries (done : Entries Value) (key : String)

/-- The container when its last value has arrived. -/
def Frame.close (frame : Frame) (v : Value) : Value :=
  match frame with
  | items done => .array (v :: done).reverse
  | entries done key => .object (done.insert key v)

/-- What the next token has to be. -/
inductive Expectation where
  /-- A value. -/
  | value
  /-- A value, or the end of the array that has just begun. -/
  | firstItem
  /-- A key of an object with these entries so far. -/
  | key (done : Entries Value)
  /-- A key, or the end of the object that has just begun. -/
  | firstKey
  /-- The colon after a key. -/
  | colon (done : Entries Value) (key : String)
  /-- What may follow a value. -/
  | after (v : Value)

/-- What is wrong if something else comes. -/
def Expectation.problem (stack : List Frame) : Expectation → Problem
  | value => .valueExpected
  | firstItem => .valueExpected
  | key _ => .propertyNameExpected
  | firstKey => .propertyNameExpected
  | colon _ _ => .colonExpected
  | after _ => if stack.isEmpty then .extraData else .commaExpected

/-- The open containers and what has to come next. -/
abbrev State :=
  List Frame × Expectation

def refuse (stack : List Frame) (expected : Expectation) (lexeme : Lexeme) : ReadError :=
  .malformed (expected.problem stack) lexeme.offset

/-- The state after the first token of a value. -/
def beginValue (stack : List Frame) (lexeme : Lexeme) : Except ReadError State :=
  match lexeme.token with
  | .string s => .ok (stack, .after (.string s))
  | .scalar v => .ok (stack, .after v)
  | .openArray => .ok (stack, .firstItem)
  | .openObject => .ok (stack, .firstKey)
  | .brokenString e => .error e
  | .broken e => .error e
  | _ => .error (refuse stack .value lexeme)

/-- The state after the key of an entry. -/
def takeKey (stack : List Frame) (done : Entries Value) (lexeme : Lexeme) :
    Except ReadError State :=
  match lexeme.token with
  | .string s => .ok (stack, .colon done s)
  | .brokenString e => .error e
  | _ => .error (refuse stack (.key done) lexeme)

def step (stack : List Frame) (expected : Expectation) (lexeme : Lexeme) :
    Except ReadError State :=
  match expected, lexeme.token with
  | .value, _ => beginValue stack lexeme
  | .firstItem, .closeArray => .ok (stack, .after (.array []))
  | .firstItem, _ => beginValue (.items [] :: stack) lexeme
  | .key done, _ => takeKey stack done lexeme
  | .firstKey, .closeObject => .ok (stack, .after (.object []))
  | .firstKey, _ => takeKey stack [] lexeme
  | .colon done key, .colon => .ok (.entries done key :: stack, .value)
  | .colon _ _, _ => .error (refuse stack expected lexeme)
  | .after v, token =>
    match stack, token with
    | .items done :: stack, .comma => .ok (.items (v :: done) :: stack, .value)
    | .entries done key :: stack, .comma => .ok (stack, .key (done.insert key v))
    | .items done :: stack, .closeArray => .ok (stack, .after ((Frame.items done).close v))
    | .entries done key :: stack, .closeObject =>
      .ok (stack, .after ((Frame.entries done key).close v))
    | _, _ => .error (refuse stack expected lexeme)

/-- Runs over the tokens of a text of the given length. -/
def run (total : Nat) (stack : List Frame) (expected : Expectation) :
    List Lexeme → Except ReadError Value
  | [] =>
    match stack, expected with
    | [], .after v => .ok v
    | _, _ => .error (.malformed (expected.problem stack) total)
  | lexeme :: rest =>
    match step stack expected lexeme with
    | .ok (stack, expected) => run total stack expected rest
    | .error e => .error e

/-- The mark that some programs write in front of a text. -/
def byteOrderMark : Char :=
  '\uFEFF'

def readChars (cs : List Char) : Except ReadError Value :=
  if cs.head? = some byteOrderMark then .error (.malformed .byteOrderMark 0)
  else run cs.length [] .value (lexemes cs.length cs)

/-- A text that is no document, and the reason. -/
structure Refusal where
  text : List Char
  error : ReadError

def Refusal.message (refusal : Refusal) : String :=
  refusal.error.message refusal.text

def read (text : String) : Except Refusal Value :=
  (readChars text.toList).mapError (Refusal.mk text.toList)

end Reshape.Json
