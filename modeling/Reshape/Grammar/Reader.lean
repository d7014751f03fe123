/-!
Reading a text token by token, where the state of the reader decides which kinds of
tokens are looked for. A text is refused at the first place where it cannot go on.
-/

namespace Reshape.Grammar

/-- A token with the characters that were skipped before it. -/
structure Token (T : Type) where
  terminal : T
  lead : List Char
  text : List Char

/-- What may come next: terminals, and `none` for the end of the text. -/
abbrev Row (T : Type) :=
  List (Option T)

/-- A token found at the front of a text, and what follows it. -/
structure Scanned (T : Type) where
  terminal : T
  text : List Char
  rest : List Char

/-- A grammar with terminals `T` and results `R`, given by a reader with states `S`. -/
structure Language (T S R : Type) where
  /-- The characters that may stand between tokens. -/
  isSkipped : Char → Bool
  /-- All terminals, in the order in which they are tried where none that is expected
  can be found. -/
  terminals : Row T
  scan : Row T → List Char → Option (Scanned T)
  scan_shortens : ∀ {row cs found}, scan row cs = some found → found.rest.length < cs.length
  start : S
  expected : S → Row T
  /-- The part of a row that a message lists when no expected token is found. -/
  listed : Row T → Row T
  /-- The next state, or what would have been possible instead. -/
  step : S → Token T → Except (Row T) S
  finish : S → Except (Row T) R

/-- What stands where a text goes wrong. -/
inductive Unexpected where
  | token (text : List Char)
  | character (c : Char)
  | ending
deriving DecidableEq, Repr

structure Failure (T : Type) where
  unexpected : Unexpected
  offset : Nat
  expected : Row T

namespace Language

variable {T S R : Type}

/-- What stands at the front of a text that holds no expected token there. -/
def unexpectedAt (language : Language T S R) (c : Char) (rest : List Char) : Unexpected :=
  match language.scan language.terminals (c :: rest) with
  | some found => .token found.text
  | none => .character c

/-- Reads the end of a text of the given length. -/
def readFrom (language : Language T S R) (total : Nat) (state : S) (cs : List Char) :
    Except (Failure T) R :=
  match _hrest : cs.dropWhile language.isSkipped with
  | [] =>
    match language.finish state with
    | .ok r => .ok r
    | .error row => .error ⟨.ending, total, row⟩
  | c :: rest =>
    match _hscan : language.scan (language.expected state) (c :: rest) with
    | none =>
      .error ⟨language.unexpectedAt c rest, total - (rest.length + 1),
        language.listed (language.expected state)⟩
    | some found =>
      let token : Token T := ⟨found.terminal, cs.takeWhile language.isSkipped, found.text⟩
      match language.step state token with
      | .error row => .error ⟨.token found.text, total - (rest.length + 1), row⟩
      | .ok next => language.readFrom total next found.rest
termination_by cs.length
decreasing_by
  have hshort := language.scan_shortens _hscan
  have hle := (List.dropWhile_sublist (l := cs) language.isSkipped).length_le
  rw [_hrest] at hle
  omega

def read (language : Language T S R) (cs : List Char) : Except (Failure T) R :=
  language.readFrom cs.length language.start cs

end Language

end Reshape.Grammar
