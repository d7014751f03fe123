import Reshape.Decimal
import Reshape.Text.Line
import Reshape.Text.Quoted

namespace Reshape.Pattern

inductive Problem where
  | danglingBackslash
  | badEscape (escape : String)
  | incompleteEscape (escape : String)
  | octalTooLarge (escape : String)
  | badReference (group : Nat)
  | openReference
  | unterminatedSet
  | badRange (range : String)
  | nothingToRepeat
  | multipleRepeat
  | boundsReversed
  | missing (what : String)
  | badName (name : String)
  | unknownName (name : String)
  | nameTaken (name : String) (group earlier : Nat)
  | unterminatedGroup
  | unterminatedComment
  | unbalancedParenthesis
  | unknownExtension (text : String)
  | unexpectedEnd
  | lateFlags
  | unknownFlag
  | contradictoryFlag
  | localeFlag
  | mixedAlphabets
  | alphabetTurnedOff
  | globalTurnedOn
  | globalTurnedOff
  | unknownCharacter (name : String)
  | badGroupNumber
  | tooManyBranches
  /-- A group that a look-behind refers to is part of it. -/
  | innerReference
  | tooFarBehind
  | openEndedBehind
  | templateRounds (operator : String)
deriving DecidableEq, Repr

namespace Problem

def message : Problem → String
  | danglingBackslash => "bad escape (end of pattern)"
  | badEscape escape => "bad escape " ++ escape
  | incompleteEscape escape => "incomplete escape " ++ escape
  | octalTooLarge escape => "octal escape value " ++ escape ++ " outside of range 0-0o377"
  | badReference group => "invalid group reference " ++ Nat.repr group
  | openReference => "cannot refer to an open group"
  | unterminatedSet => "unterminated character set"
  | badRange range => "bad character range " ++ range
  | nothingToRepeat => "nothing to repeat"
  | multipleRepeat => "multiple repeat"
  | boundsReversed => "min repeat greater than max repeat"
  | missing what => "missing " ++ what
  | badName name => "bad character in group name " ++ Text.quoted name
  | unknownName name => "unknown group name " ++ Text.quoted name
  | nameTaken name group earlier =>
    "redefinition of group name " ++ Text.quoted name ++ " as group " ++ Nat.repr group ++
      "; was group " ++ Nat.repr earlier
  | unterminatedGroup => "missing ), unterminated subpattern"
  | unterminatedComment => "missing ), unterminated comment"
  | unbalancedParenthesis => "unbalanced parenthesis"
  | unknownExtension text => "unknown extension ?" ++ text
  | unexpectedEnd => "unexpected end of pattern"
  | lateFlags => "global flags not at the start of the expression"
  | unknownFlag => "unknown flag"
  | contradictoryFlag => "bad inline flags: flag turned on and off"
  | localeFlag => "bad inline flags: cannot use 'L' flag with a str pattern"
  | mixedAlphabets => "bad inline flags: flags 'a', 'u' and 'L' are incompatible"
  | alphabetTurnedOff => "bad inline flags: cannot turn off flags 'a', 'u' and 'L'"
  | globalTurnedOn => "bad inline flags: cannot turn on global flag"
  | globalTurnedOff => "bad inline flags: cannot turn off global flag"
  | unknownCharacter name => "undefined character name " ++ Text.quoted name
  | badGroupNumber => "bad group number"
  | tooManyBranches => "conditional backref with more than two branches"
  | innerReference => "cannot refer to group defined in the same lookbehind subpattern"
  | tooFarBehind => "looks too much behind"
  | openEndedBehind => "look-behind requires fixed-width pattern"
  | templateRounds operator => "internal: unsupported template operator " ++ operator

end Problem

inductive Error where
  /-- Something is wrong at a place of the text. -/
  | malformed (problem : Problem) (offset : Nat)
  /-- Something is wrong with the text as a whole. -/
  | unusable (problem : Problem)
  /-- A count of repetitions is beyond all bounds. -/
  | repeatTooLarge
  /-- A count of repetitions has more digits than are read. -/
  | numeralTooLong (digits : Nat)
  /-- Two flags for the whole pattern ask for different alphabets. -/
  | mixedGlobalAlphabets
  /-- A replacement names a group that the pattern does not have. -/
  | groupNotFound (name : String)
deriving DecidableEq, Repr

namespace Error

def typeName : Error → String
  | malformed _ _ => "error"
  | unusable _ => "error"
  | repeatTooLarge => "OverflowError"
  | numeralTooLong _ => "ValueError"
  | mixedGlobalAlphabets => "ValueError"
  | groupNotFound _ => "IndexError"

/-- Whether a value is said to be wrong, and not only a pattern or a replacement. -/
def isOfValue : Error → Bool
  | numeralTooLong _ => true
  | mixedGlobalAlphabets => true
  | _ => false

/-- A place is given by line and column too if the text has several lines. -/
def message (text : String) : Error → String
  | malformed problem offset =>
    let p := Text.Position.ofOffset text.toList offset
    problem.message ++ " at position " ++ Nat.repr offset ++
      (if text.toList.contains '\n' then
        " (line " ++ Nat.repr p.line ++ ", column " ++ Nat.repr p.column ++ ")"
      else "")
  | unusable problem => problem.message
  | repeatTooLarge => "the repetition number is too large"
  | numeralTooLong digits => Decimal.tooLongToRead digits
  | mixedGlobalAlphabets => "ASCII and UNICODE flags are incompatible"
  | groupNotFound name => (Problem.unknownName name).message

end Error

end Reshape.Pattern
