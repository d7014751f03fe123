import Reshape.Number.Read
import Reshape.Pattern.Source
import Reshape.Text.Identifier

namespace Reshape.Pattern

open Reshape.Text

namespace Reader

def isOctalDigit (c : Char) : Bool :=
  '0' ≤ c && c ≤ '7'

def isHexDigit (c : Char) : Bool :=
  isAsciiDigit c || ('a' ≤ c && c ≤ 'f') || ('A' ≤ c && c ≤ 'F')

def isAsciiLetter (c : Char) : Bool :=
  ('a' ≤ c && c ≤ 'z') || ('A' ≤ c && c ≤ 'Z')

/-- The number written by digits, of which letters count from ten on. -/
def valueInBase (base : Nat) (digits : List Char) : Nat :=
  digits.foldl
    (fun n c =>
      base * n +
        (if isAsciiDigit c then c.toNat - 48 else if 'a' ≤ c then c.toNat - 87 else c.toNat - 55))
    0

/-- The characters that a letter stands for behind a backslash. -/
def controlEscape? (c : Char) : Option Nat :=
  match c with
  | 'a' => some 7
  | 'b' => some 8
  | 't' => some 9
  | 'n' => some 10
  | 'v' => some 11
  | 'f' => some 12
  | 'r' => some 13
  | '\\' => some 92
  | _ => none

def categoryEscape? (alphabet : Alphabet) (c : Char) : Option Member :=
  match c with
  | 'd' => some (.category .digit alphabet false)
  | 'D' => some (.category .digit alphabet true)
  | 's' => some (.category .space alphabet false)
  | 'S' => some (.category .space alphabet true)
  | 'w' => some (.category .word alphabet false)
  | 'W' => some (.category .word alphabet true)
  | _ => none

def anchorEscape? (alphabet : Alphabet) (c : Char) : Option Anchor :=
  match c with
  | 'A' => some .textStart
  | 'Z' => some .textEnd
  | 'b' => some (.wordBoundary alphabet)
  | 'B' => some (.noWordBoundary alphabet)
  | _ => none

/-- How many hexadecimal digits follow a letter behind a backslash. -/
def hexEscapeLength? (c : Char) : Option Nat :=
  match c with
  | 'x' => some 2
  | 'u' => some 4
  | 'U' => some 8
  | _ => none

def failEscape {α : Type} (escape : List Char) : Reader α :=
  fail (.badEscape (String.ofList escape)) escape.length

/-- The code point of a hexadecimal escape. -/
def hexEscape (c : Char) (length : Nat) : Reader Nat := do
  let digits ← takeWhile isHexDigit length
  let escape := '\\' :: c :: digits
  if digits.length < length then
    fail (.incompleteEscape (String.ofList escape)) escape.length
  let n := valueInBase 16 digits
  if n > 0x10FFFF then failEscape escape
  return n

/-- The code point of an escape with octal digits. -/
def octalEscape (digits : List Char) : Reader Nat := do
  let n := valueInBase 8 digits
  if n > 0o377 then
    fail (.octalTooLarge (String.ofList ('\\' :: digits))) (digits.length + 1)
  return n

/-- The code point of a character that is given by its name between braces. -/
def namedEscape : Reader Nat := do
  if !(← takeIf '\x7b') then fail (.missing "\x7b") 0
  let name ← takeUntil '\x7d' "character name"
  match (← get).charNamed? (String.ofList name) with
  | some c => return c.toNat
  | none => fail (.unknownCharacter (String.ofList name)) (name.length + 4)

/-- A member of a set that begins with a backslash. -/
def memberEscape (c : Char) : Reader Member := do
  if let some n := controlEscape? c then return .code n
  if let some member := categoryEscape? (← get).flags.alphabet c then return member
  if let some length := hexEscapeLength? c then return .code (← hexEscape c length)
  if c = 'N' then return .code (← namedEscape)
  if isOctalDigit c then return .code (← octalEscape (c :: (← takeWhile isOctalDigit 2)))
  if isAsciiDigit c || isAsciiLetter c then failEscape ['\\', c]
  return .code c.toNat

def oneCode (n : Nat) : Reader Node :=
  return .oneOf false [.code n] (← get).flags.casing

def completeWidth? (state : Reading) (group : Nat) : Option Width :=
  state.complete.lookup group

/-- In a look-behind, refuses references to the groups of which it is made. -/
def refuseInner (group : Nat) : Reader Unit := do
  let state ← get
  match state.behindFrom with
  | none => return ()
  | some bound =>
    if (completeWidth? state group).isNone then fail .openReference 0
    if bound ≤ group then fail .innerReference 0

/-- A reference to a group; `back` characters before the place if it is still open. -/
def reference (group back : Nat) : Reader Node := do
  let state ← get
  match completeWidth? state group with
  | none => fail .openReference back
  | some width =>
    refuseInner group
    return .reference group state.flags.casing width

/-- A backslash and digits: one or two for a group, three for an octal escape. -/
def digitEscape (c : Char) : Reader Node := do
  let more ← takeWhile isAsciiDigit 1
  let digits := c :: more
  let third ←
    if digits.length = 2 && digits.all isOctalDigit then takeWhile isOctalDigit 1 else pure []
  if third.isEmpty then
    let group := Decimal.value digits
    if (← get).nextGroup ≤ group then fail (.badReference group) digits.length
    reference group (digits.length + 1)
  else
    oneCode (← octalEscape (digits ++ third))

/-- A part of a pattern that begins with a backslash. -/
def nodeEscape (c : Char) : Reader Node := do
  let flags := (← get).flags
  if let some place := anchorEscape? flags.alphabet c then return .anchor place
  if let some member := categoryEscape? flags.alphabet c then
    return .oneOf false [member] flags.casing
  if let some n := controlEscape? c then return ← oneCode n
  if let some length := hexEscapeLength? c then return ← oneCode (← hexEscape c length)
  if c = 'N' then return ← oneCode (← namedEscape)
  if c = '0' then
    return ← oneCode (valueInBase 8 (← takeWhile isOctalDigit 2))
  if isAsciiDigit c then return ← digitEscape c
  if isAsciiLetter c then failEscape ['\\', c]
  oneCode c.toNat

/-- A member of a set, given its first piece. -/
def member (piece : Piece) : Reader Member :=
  match piece with
  | .escaped c => memberEscape c
  | .plain c => return .code c.toNat
  | .dangling => return .code 92

/-- The members from one code point to another. The texts are those of the pieces. -/
def range (low high : Member) (lowText highText : List Char) : Reader Member := do
  let text := lowText ++ '-' :: highText
  match low, high with
  | .code m, .code n =>
    if n < m then fail (.badRange (String.ofList text)) text.length
    return .range m n
  | _, _ => fail (.badRange (String.ofList text)) text.length

/-- The members of a set up to its closing bracket. The fuel is the number of pieces,
and `opening` the place of the opening bracket. -/
def members (opening : Nat) (done : List Member) : Nat → Reader (List Member)
  | 0 => failAt opening .unterminatedSet
  | fuel + 1 => do
    match ← take with
    | none => failAt opening .unterminatedSet
    | some piece =>
      if piece = .plain ']' && !done.isEmpty then return done
      let low ← member piece
      if ← takeIf '-' then
        match ← take with
        | none => failAt opening .unterminatedSet
        | some last =>
          if last = .plain ']' then return done ++ [low, .code 45]
          let high ← member last
          members opening (done ++ [← range low high piece.chars last.chars]) fuel
      else
        members opening (done ++ [low]) fuel

/-- A set of characters behind its opening bracket. -/
def set : Reader Node := do
  let opening := (← tell) - 1
  let negated ← takeIf '^'
  let all ← members opening [] ((← get).rest.length + 1)
  return .oneOf negated all (← get).flags.casing

/-- The first count of repetitions that is refused. -/
def repeatLimit : Nat :=
  4294967295

def boundOf (digits : List Char) : Reader Nat := do
  if Decimal.digitLimit < digits.length then throw (.numeralTooLong digits.length)
  let n := Decimal.value digits
  if repeatLimit ≤ n then throw .repeatTooLarge
  return n

/-- The bounds of a repetition, given the first character of its mark. Braces that give
no bounds stand for themselves. -/
def bounds? (mark : Char) : Reader (Option (Nat × Option Nat)) := do
  match mark with
  | '?' => return some (0, some 1)
  | '*' => return some (0, none)
  | '+' => return some (1, none)
  | _ =>
    let start ← get
    if (← peek) = some (.plain '\x7d') then return none
    let fuel := start.rest.length
    let low ← takeWhile isAsciiDigit fuel
    let high ← if ← takeIf ',' then takeWhile isAsciiDigit fuel else pure low
    if ← takeIf '\x7d' then
      let least ← if low.isEmpty then pure 0 else boundOf low
      if high.isEmpty then return some (least, none)
      let most ← boundOf high
      if most < least then failAt start.offset .boundsReversed
      return some (least, some most)
    else
      StateT.set start
      return none

def manner : Reader Manner := do
  if ← takeIf '?' then return .reluctant
  if ← takeIf '+' then return .possessive
  return .greedy

/-- A part of a sequence, and what can be done with it. -/
structure Item where
  node : Node
  isAnchor : Bool
  isRounds : Bool

def plainItem (node : Node) : Item :=
  ⟨node, false, false⟩

/-- The sequence with its last part repeated. -/
def repeatLast (items : List Item) (offset : Nat) (least : Nat) (most : Option Nat) :
    Reader (List Item) := do
  match items.getLast? with
  | none => failAt offset .nothingToRepeat
  | some item =>
    if item.isAnchor then failAt offset .nothingToRepeat
    if item.isRounds then failAt offset .multipleRepeat
    return items.dropLast ++ [⟨.rounds least most (← manner) item.node, false, true⟩]

/-- The name of a group up to a terminator. -/
def groupName (terminator : Char) : Reader (List Char) := do
  let name ← takeUntil terminator "group name"
  if !isIdentifier name then fail (.badName (String.ofList name)) (name.length + 1)
  return name

/-- The number that a name spells, with blanks, a sign and underscores as in numerals. -/
def spelledNumber? (name : List Char) : Option Nat :=
  match Number.readInt? name with
  | some i => if i < 0 then none else some i.natAbs
  | none => none

/-- The first group number that cannot be written. -/
def groupLimit : Nat :=
  1073741823

def groupNamed? (state : Reading) (name : List Char) : Option Nat :=
  (state.names.find? fun e => e.1.toList == name).map Prod.snd

/-- What the parentheses around a part of a pattern do. -/
inductive GroupKind where
  | capturing (name : Option String)
  | plain
  | settled
  | look (behind negated : Bool)
deriving DecidableEq, Repr

/-- What stands behind an opening parenthesis. -/
inductive Opening where
  | group (kind : GroupKind)
  /-- A group with flags that are turned on and off for it. -/
  | flags (on off : List Char)
  /-- Flags for the whole pattern. -/
  | globalFlags (on : List Char)
  | conditional (group : Nat)
  | node (node : Node)
  | comment

def isFlag (c : Char) : Bool :=
  ['i', 'L', 'm', 's', 'x', 'a', 't', 'u'].contains c

/-- The flags that choose an alphabet. No two of them go together. -/
def isAlphabetFlag (c : Char) : Bool :=
  c == 'a' || c == 'L' || c == 'u'

/-- Takes a flag, or a character that may stand in its place. -/
def flagOr (others : List Char) (what : String) : Reader Char := do
  match ← take with
  | none => fail (.missing what) 0
  | some piece =>
    match piece with
    | .plain c =>
      if isFlag c || others.contains c then return c
      if isLetter c then fail .unknownFlag 1
      fail (.missing what) 1
    | _ => fail (.missing what) piece.width

/-- The flags that are turned on, given the latest, and the character that ends them. -/
def flagsOn (on : List Char) (c : Char) : Nat → Reader (List Char × Char)
  | 0 => fail .unexpectedEnd 0
  | fuel + 1 => do
    if c = 'L' then fail .localeFlag 0
    if isAlphabetFlag c && on.any fun other => isAlphabetFlag other && other != c then
      fail .mixedAlphabets 0
    let next ← flagOr [')', '-', ':'] "-, : or )"
    if isFlag next then flagsOn (on ++ [c]) next fuel else return (on ++ [c], next)

/-- The flags that are turned off, given the latest, up to a colon. -/
def flagsOff (off : List Char) (c : Char) : Nat → Reader (List Char)
  | 0 => fail .unexpectedEnd 0
  | fuel + 1 => do
    if isAlphabetFlag c then fail .alphabetTurnedOff 0
    let next ← flagOr [':'] ":"
    if isFlag next then flagsOff (off ++ [c]) next fuel else return off ++ [c]

/-- Flags, given the first of them or the minus sign before them. -/
def flags (first : Char) : Reader Opening := do
  let fuel := (← get).rest.length + 1
  let (on, last) ← if first = '-' then pure ([], '-') else flagsOn [] first fuel
  if last = ')' then return .globalFlags on
  if on.contains 't' then fail .globalTurnedOn 1
  let off ← if last = '-' then flagsOff [] (← flagOr [] "flag") fuel else pure []
  if off.contains 't' then fail .globalTurnedOff 1
  if on.any off.contains then fail .contradictoryFlag 1
  return .flags on off

/-- Takes a comment up to its closing parenthesis. -/
def comment (opening : Nat) : Nat → Reader Unit
  | 0 => failAt opening .unterminatedComment
  | fuel + 1 => do
    match ← take with
    | none => failAt opening .unterminatedComment
    | some piece => if piece = .plain ')' then return () else comment opening fuel

/-- A reference to a group by its name. -/
def namedReference : Reader Node := do
  let name ← groupName ')'
  match groupNamed? (← get) name with
  | none => fail (.unknownName (String.ofList name)) (name.length + 1)
  | some group => reference group (name.length + 1)

/-- The group that a condition refers to. A number can be that of a group still to come,
which is looked at when all is read. -/
def condition : Reader Nat := do
  let name ← takeUntil ')' "group name"
  let back := name.length + 1
  if isIdentifier name then
    match groupNamed? (← get) name with
    | none => fail (.unknownName (String.ofList name)) back
    | some group =>
      refuseInner group
      return group
  else
    match spelledNumber? name with
    | none => fail (.badName (String.ofList name)) back
    | some group =>
      if group = 0 then fail .badGroupNumber back
      if groupLimit ≤ group then fail (.badReference group) back
      modify fun state =>
        { state with conditions := state.conditions ++ [(group, state.offset - back)] }
      refuseInner group
      return group

/-- What follows the mark of an extension, given the place of the parenthesis. -/
def extension (opening : Nat) : Reader Opening := do
  match ← take with
  | none => fail .unexpectedEnd 0
  | some (.plain 'P') =>
    if ← takeIf '<' then
      return .group (.capturing (some (String.ofList (← groupName '>'))))
    if ← takeIf '=' then return .node (← namedReference)
    match ← take with
    | none => fail .unexpectedEnd 0
    | some piece => fail (.unknownExtension ("P" ++ piece.text)) (piece.width + 2)
  | some (.plain ':') => return .group .plain
  | some (.plain '>') => return .group .settled
  | some (.plain '=') => return .group (.look false false)
  | some (.plain '!') => return .group (.look false true)
  | some (.plain '#') => do
    comment opening ((← get).rest.length + 1)
    return .comment
  | some (.plain '(') => return .conditional (← condition)
  | some (.plain '<') => do
    match ← take with
    | none => fail .unexpectedEnd 0
    | some (.plain '=') => return .group (.look true false)
    | some (.plain '!') => return .group (.look true true)
    | some piece => fail (.unknownExtension ("<" ++ piece.text)) (piece.width + 2)
  | some piece =>
    match piece with
    | .plain c =>
      if isFlag c || c == '-' then return ← flags c
      fail (.unknownExtension piece.text) (piece.width + 1)
    | _ => fail (.unknownExtension piece.text) (piece.width + 1)

/-- Numbers a group that opens. -/
def openGroup (name : Option String) : Reader Nat := do
  let state ← get
  let group := state.nextGroup
  match name with
  | none => StateT.set { state with nextGroup := group + 1 }
  | some name =>
    match groupNamed? state name.toList with
    | some earlier => fail (.nameTaken name group earlier) (name.toList.length + 1)
    | none =>
      StateT.set { state with nextGroup := group + 1, names := state.names ++ [(name, group)] }
  return group

def closeGroup (group : Nat) (body : Node) : Reader Unit :=
  modify fun state => { state with complete := (group, body.width) :: state.complete }

/-- Sets flags for all that follows. -/
def setFlags (on : List Char) : Reader Unit :=
  modify fun state =>
    { state with
      flags := state.flags.change on [], globalFlags := state.globalFlags ++ on }

/-- Takes the closing parenthesis of what opened at a place. -/
def close (opening : Nat) : Reader Unit := do
  if !(← takeIf ')') then failAt opening .unterminatedGroup

/-- The body of a look-behind, which refers to no group that opens in it. -/
def behindBody (body : Reader Node) : Reader Node := do
  let before := (← get).behindFrom
  modify fun state => { state with behindFrom := before.or (some state.nextGroup) }
  let node ← body
  modify fun state => { state with behindFrom := before }
  return node

def group (opening : Nat) (body : Reader Node) (kind : GroupKind) : Reader Node := do
  match kind with
  | .capturing name =>
    let index ← openGroup name
    let node ← body
    close opening
    closeGroup index node
    return .group index node
  | .plain =>
    let node ← body
    close opening
    return node
  | .settled =>
    let node ← body
    close opening
    return .settled node
  | .look behind negated =>
    let node ← if behind then behindBody body else body
    close opening
    return .look behind negated node

/-- A group in which some flags differ. -/
def flaggedGroup (opening : Nat) (body : Reader Node) (on off : List Char) : Reader Node := do
  let before := (← get).flags
  modify fun state => { state with flags := before.change on off }
  let node ← body
  close opening
  modify fun state => { state with flags := before }
  return node

/-- One or two branches behind a condition, each read by `branch`. -/
def conditional (opening : Nat) (branch : Reader Node) (group : Nat) : Reader Node := do
  let yes ← branch
  let no ←
    if ← takeIf '|' then do
      let no ← branch
      if (← peek) = some (.plain '|') then fail .tooManyBranches 0
      pure no
    else pure .empty
  close opening
  return .conditional group yes no

/-- What an opening parenthesis adds to a sequence, given readers of alternatives and of a
sequence. Flags for the whole pattern may stand only at its very start. -/
def parenthesis (body branch : Reader Node) (atStart : Bool) : Reader (List Item) := do
  let opening := (← tell) - 1
  let found ← if ← takeIf '?' then extension opening else pure (.group (.capturing none))
  match found with
  | .group kind => return [plainItem (← group opening body kind)]
  | .flags on off => return [plainItem (← flaggedGroup opening body on off)]
  | .globalFlags on =>
    if !atStart then failAt opening .lateFlags
    setFlags on
    return []
  | .conditional index => return [plainItem (← conditional opening branch index)]
  | .node node => return [plainItem node]
  | .comment => return []

/-- The part of a pattern that a piece begins, if it needs no others. -/
def simpleItem (piece : Piece) : Reader Item := do
  match piece with
  | .escaped c =>
    let node ← nodeEscape c
    return ⟨node, (anchorEscape? .unicode c).isSome, false⟩
  | .plain '[' => return plainItem (← set)
  | .plain '.' => return plainItem (.any (← get).flags.dotAll)
  | .plain '^' =>
    return ⟨.anchor (if (← get).flags.multiline then .lineStart else .textStart), true, false⟩
  | .plain '$' =>
    return ⟨.anchor (if (← get).flags.multiline then .lineEnd else .lastLineEnd), true, false⟩
  | .plain c => return plainItem (← oneCode c.toNat)
  | .dangling => return plainItem (← oneCode 92)

def isRepeatMark (c : Char) : Bool :=
  c == '*' || c == '+' || c == '?' || c == '\x7b'

/-- Takes a comment up to the end of its line. -/
def lineComment : Nat → Reader Unit
  | 0 => return ()
  | fuel + 1 => do
    match ← take with
    | none => return ()
    | some piece => if piece = .plain '\n' then return () else lineComment fuel

/-- Takes what counts as nothing when a verbose pattern goes on with a character. -/
def skipped (c : Char) : Reader Bool := do
  if !(← get).flags.verbose then return false
  if isBlankIn .ascii c then return true
  if c = '#' then
    lineComment ((← get).rest.length + 1)
    return true
  return false

mutual

/-- Alternatives up to the end of the pattern or a closing parenthesis. -/
def alternatives (outermost : Bool) (done : List Node) : Nat → Reader Node
  | 0 => fail .unexpectedEnd 0
  | fuel + 1 => do
    let node ← sequence (outermost && done.isEmpty) [] fuel
    if ← takeIf '|' then alternatives outermost (done ++ [node]) fuel
    else return Node.choice (done ++ [node])

/-- The parts of a sequence behind some of them. -/
def sequence (first : Bool) (items : List Item) : Nat → Reader Node
  | 0 => fail .unexpectedEnd 0
  | fuel + 1 => do
    match ← peek with
    | none | some (.plain '|') | some (.plain ')') =>
      return Node.sequence (items.map Item.node)
    | some piece =>
      let _ ← take
      match piece with
      | .plain c =>
        if ← skipped c then
          sequence first items fuel
        else if c = '(' then
          let more ← parenthesis (alternatives false [] fuel) (sequence false [] fuel)
            (first && items.isEmpty)
          sequence first (items ++ more) fuel
        else if isRepeatMark c then
          let here ← tell
          match ← bounds? c with
          | some (least, most) =>
            sequence first (← repeatLast items (here - 1) least most) fuel
          | none => sequence first (items ++ [plainItem (← oneCode c.toNat)]) fuel
        else
          sequence first (items ++ [← simpleItem piece]) fuel
      | _ => sequence first (items ++ [← simpleItem piece]) fuel

end

/-- The greatest width of a look-behind. -/
def behindLimit : Nat :=
  4294967295

/-- What is wrong with a node that is complete, the outermost and leftmost first. A
template has no repetitions. -/
def problem? (isTemplate : Bool) : Node → Option Problem
  | .group _ body => problem? isTemplate body
  | .conditional _ yes no => (problem? isTemplate yes).or (problem? isTemplate no)
  | .both first second => (problem? isTemplate first).or (problem? isTemplate second)
  | .either first second => (problem? isTemplate first).or (problem? isTemplate second)
  | .rounds _ _ manner body =>
    if isTemplate then some (.templateRounds manner.operator)
    else problem? isTemplate body
  | .look behind _ body =>
    if behind && behindLimit < body.width.least then some .tooFarBehind
    else if behind && !body.width.isFixed then some .openEndedBehind
    else problem? isTemplate body
  | .settled body => problem? isTemplate body
  | _ => none

/-- A whole pattern. -/
def whole : Reader Node := do
  refuseDangling
  let fuel := 3 * (← get).rest.length + 3
  let node ← alternatives true [] fuel
  let state ← get
  if state.globalFlags.contains 'a' && state.globalFlags.contains 'u' then
    throw .mixedGlobalAlphabets
  if (← peek).isSome then fail .unbalancedParenthesis 0
  if let some (group, offset) := state.conditions.find? fun e => state.nextGroup ≤ e.1 then
    failAt offset (.badReference group)
  match problem? (state.globalFlags.contains 't') node with
  | some problem => throw (.unusable problem)
  | none => return node

end Reader

/-- Reads a pattern, given which characters have names. -/
def Regex.read (charNamed? : String → Option Char) (text : String) : Except Error Regex :=
  match Reader.whole.run { rest := pieces text.toList, charNamed? } with
  | .error e => .error e
  | .ok (node, final) => .ok ⟨text, node, final.nextGroup - 1, final.names⟩

end Reshape.Pattern
