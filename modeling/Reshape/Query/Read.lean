import Reshape.Query.Path
import Reshape.Query.Token

/-!
Queries as they are read. Two dots bind loosest, then one dot, then a bar; each groups
to the left. A bracket applies to all that stands before it.
-/

namespace Reshape.Query

/-- Reads tokens from the front. -/
abbrev Reader :=
  StateT (List (Except SyntaxError Token)) (Except SyntaxError)

namespace Reader

/-- The next token, which stays. A broken one ends the reading. -/
def peek : Reader (Option Token) := do
  match ← get with
  | [] => return none
  | .error e :: _ => throw e
  | .ok token :: _ => return some token

def advance : Reader Unit :=
  modify List.tail

def take : Reader Token := do
  match ← peek with
  | none => throw .unexpectedEnd
  | some token =>
    advance
    return token

/-- Whether the next token is the given mark. -/
def isNext (c : Char) : Reader Bool := do
  return (← peek).any fun token => token.symbol = .mark c

/-- Takes the given mark if it comes next. -/
def takeIf (c : Char) : Reader Bool := do
  let found ← isNext c
  if found then advance
  return found

/-- Takes the given mark, which must come next. -/
def expect (c : Char) : Reader Unit := do
  let token ← take
  if token.symbol ≠ .mark c then throw (.unexpected token)

/-- The field that a token names. -/
def fieldName? : Symbol → Option String
  | .name text => some text
  | .flag b => some (if b then "true" else "false")
  | .null => some "null"
  | _ => none

/-- Names behind commas. -/
def moreNames : Nat → Reader (List String)
  | 0 => throw .unexpectedEnd
  | fuel + 1 => do
    if ← takeIf ',' then
      let token ← take
      match fieldName? token.symbol with
      | some name => return name :: (← moreNames fuel)
      | none => throw (.unexpected token)
    else
      return []

/-- Fields by name. The name with only a star stands for all. -/
def fields (names : List String) : Path :=
  if names.contains "*" then .children else .fields names

/-- Integers behind commas. -/
def moreIntegers : Nat → Reader (List Int)
  | 0 => throw .unexpectedEnd
  | fuel + 1 => do
    if ← takeIf ',' then
      let token ← take
      match token.symbol with
      | .integer i => return i :: (← moreIntegers fuel)
      | _ => throw (.unexpected token)
    else
      return []

def takeInteger? : Reader (Option Int) := do
  match ← peek with
  | some ⟨.integer i, _⟩ =>
    advance
    return some i
  | _ => return none

/-- The rest of a slice behind its first colon. One without bounds selects all. -/
def sliceFrom (first : Option Int) : Reader Path := do
  let last ← takeInteger?
  let step ← if ← takeIf ':' then takeInteger? else pure none
  match first, last, step with
  | none, none, none => return .children
  | _, _, _ => return .slice first last step

/-- What stands between brackets, and the closing one. -/
def selector (fuel : Nat) : Reader Path := do
  let token ← take
  let path ←
    match token.symbol with
    | .mark '*' => pure Path.children
    | .mark ':' => sliceFrom none
    | .integer i =>
      if ← takeIf ':' then sliceFrom (some i)
      else pure (.indices (i :: (← moreIntegers fuel)))
    | symbol =>
      match fieldName? symbol with
      | some name => pure (fields (name :: (← moreNames fuel)))
      | none => throw (.unexpected token)
  expect ']'
  return path

/-- Paths by the names between backquotes. -/
def namedPaths : List (String × Path) :=
  [("this", .here), ("parent", .parent), ("len", .size), ("keys", .keys)]

def namedPath (name : String) (place : Place) : Reader Path :=
  match namedPaths.lookup name with
  | some path => return path
  | none => throw (.unknownOperator name place)

/-- The left sides of operators whose right sides are not complete yet, at most one for
each operator. -/
structure Pending where
  descent : Option Path
  child : Option Path
  union : Option Path

namespace Pending

def empty : Pending :=
  ⟨none, none, none⟩

def joinUnion (pending : Pending) (operand : Path) : Path :=
  match pending.union with
  | some left => .union left operand
  | none => operand

def joinChild (pending : Pending) (operand : Path) : Path :=
  match pending.child with
  | some left => .child left (pending.joinUnion operand)
  | none => pending.joinUnion operand

/-- The path that is complete once an operand ends it. -/
def join (pending : Pending) (operand : Path) : Path :=
  match pending.descent with
  | some left => .descent left (pending.joinChild operand)
  | none => pending.joinChild operand

end Pending

def relations : List (String × Comparison) :=
  [("==", .relating .equal), ("=", .relating .equal), ("!=", .relating .unequal),
    ("<", .relating .less), ("<=", .relating .atMost), (">", .relating .greater),
    (">=", .relating .atLeast), ("=~", .pattern)]

def literal : Reader Literal := do
  let token ← take
  match token.symbol with
  | .name text => return .text text
  | .integer i => return .integer i
  | .real x => return .real x
  | .flag b => return .flag b
  | .null => return .null
  | _ => throw (.unexpected token)

/-- A condition on a path: a comparison if an operator follows. -/
def conditionOn (path : Path) : Reader Condition := do
  match ← peek with
  | some ⟨.operator text, _⟩ =>
    advance
    match relations.lookup text with
    | some comparison => return .compared path comparison (← literal)
    | none => return .found path
  | _ => return .found path

mutual

/-- A path without operators. -/
def atom : Nat → Reader Path
  | 0 => throw .unexpectedEnd
  | fuel + 1 => do
    let token ← take
    match token.symbol with
    | .mark '$' => return .root
    | .mark '@' => return .here
    | .mark '*' => return .children
    | .named name => namedPath name token.place
    | .integer i => return .fields [String.ofList (Decimal.signedDigits i)]
    | .mark '[' => selector fuel
    | .mark '(' =>
      let path ← path fuel
      expect ')'
      return path
    | symbol =>
      match fieldName? symbol with
      | some name => return fields (name :: (← moreNames fuel))
      | none => throw (.unexpected token)

def path : Nat → Reader Path
  | 0 => throw .unexpectedEnd
  | fuel + 1 => do
    pathFrom .empty (← atom fuel) fuel

/-- A path whose last operand is complete. -/
def pathFrom (pending : Pending) (operand : Path) : Nat → Reader Path
  | 0 => throw .unexpectedEnd
  | fuel + 1 => do
    match (← peek).map Token.symbol with
    | some (.mark '|') =>
      advance
      pathFrom { pending with union := some (pending.joinUnion operand) } (← atom fuel) fuel
    | some (.mark '.') =>
      advance
      let left := pending.joinChild operand
      pathFrom { pending with child := some left, union := none } (← atom fuel) fuel
    | some .descent =>
      advance
      let left := pending.join operand
      if ← takeIf '[' then
        if ← takeIf '?' then pathFrom .empty (.descent left (← filter fuel)) fuel
        else pathFrom ⟨some left, none, none⟩ (← selector fuel) fuel
      else
        pathFrom ⟨some left, none, none⟩ (← atom fuel) fuel
    | some (.mark '[') =>
      advance
      let right ← if ← takeIf '?' then filter fuel else selector fuel
      pathFrom .empty (.child (pending.join operand) right) fuel
    | _ => return pending.join operand

/-- A filter behind its question mark, and the closing bracket. -/
def filter : Nat → Reader Path
  | 0 => throw .unexpectedEnd
  | fuel + 1 => do
    let condition ← condition fuel
    expect ']'
    return .filter condition

def condition : Nat → Reader Condition
  | 0 => throw .unexpectedEnd
  | fuel + 1 => do
    conditionFrom (← term fuel) fuel

/-- A condition whose last term is complete. -/
def conditionFrom (done : Condition) : Nat → Reader Condition
  | 0 => throw .unexpectedEnd
  | fuel + 1 => do
    if ← takeIf '&' then conditionFrom (.both done (← term fuel)) fuel else return done

/-- One term. Parentheses around a mere path are part of that path. -/
def term : Nat → Reader Condition
  | 0 => throw .unexpectedEnd
  | fuel + 1 => do
    if ← takeIf '(' then
      let inner ← condition fuel
      expect ')'
      match inner with
      | .found path => conditionOn (← pathFrom .empty path fuel)
      | _ => return inner
    else
      conditionOn (← path fuel)

end

/-- A path and nothing behind it. Each token uses up at most four levels of fuel. -/
def whole : Reader Path := do
  let found ← path (4 * (← get).length + 4)
  match ← peek with
  | none => return found
  | some token => throw (.unexpected token)

end Reader

def Path.read (query : String) : Except SyntaxError Path :=
  match Reader.whole.run (tokens query) with
  | .error e => .error e
  | .ok (path, _) => .ok path

end Reshape.Query
