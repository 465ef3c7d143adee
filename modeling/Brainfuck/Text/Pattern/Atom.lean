import Brainfuck.Text.Pattern.Expression
import Brainfuck.Text.Pattern.Flaw
import Brainfuck.Text.Pattern.Modes

/-!
# Atoms

The smallest parts of a pattern, and what they mean under the modes in force. A
pattern of characters knows the characters of ASCII by name and the others only
one by one: it has no shorthands, no properties and no folding of case, since all
of these go beyond ASCII. A pattern of bytes has them within ASCII, but nothing
that could match in the middle of a character.
-/

namespace Brainfuck.Text.Pattern

/-- Sets of characters with a letter for a name. -/
inductive Shorthand where
  | digit
  | space
  | word
  deriving DecidableEq, Repr

namespace Shorthand

/-- The characters of a shorthand, within ASCII. -/
def set : Shorthand -> CharacterSet
  | .digit => .between '0' '9'
  | .space => .ofList [' ', '\t', '\n', '\x0b', '\x0c', '\r']
  | .word =>
      ((CharacterSet.between '0' '9').union (.between 'A' 'Z')).union
        ((CharacterSet.between 'a' 'z').union (.single '_'))

end Shorthand

/-- The smallest parts of a pattern. -/
inductive Atom where
  /-- A character, which may have been written as the number of a byte. -/
  | literal (character : Char) (fromByte : Bool)
  | anyCharacter
  | lineStart
  | lineStop
  | textStart
  | textStop
  | boundary (boundary : Boundary)
  | shorthand (shorthand : Shorthand) (negated : Bool)
  /-- A property of characters, or a value of one. -/
  | property (isValue : Bool)
  deriving DecidableEq, Repr

namespace Atom

/-- The set of a literal as a member of a class. -/
def literalMember (modes : Modes) (character : Char) (fromByte : Bool) :
    Except Mistake CharacterSet :=
  if modes.unicode ∨ character.toNat < 0x80 then .ok (.single character)
  else if fromByte then .error .characterSplit
  else .error .unicodeNotAllowed

/-- The set of a literal on its own. -/
def literalSet (modes : Modes) (character : Char) (fromByte : Bool) :
    Except Mistake CharacterSet :=
  if modes.unicode then
    if modes.foldedCase then .error .foldingUnavailable else .ok (.single character)
  else if fromByte ∧ 0x80 ≤ character.toNat then .error .characterSplit
  else if modes.foldedCase then .ok (CharacterSet.single character).withBothCases
  else .ok (.single character)

/-- The set of a shorthand. -/
def shorthandSet (modes : Modes) (shorthand : Shorthand) (negated : Bool) :
    Except Mistake CharacterSet :=
  if modes.unicode then .error .shorthandUnavailable
  else if negated then .error .characterSplit
  else .ok shorthand.set

/-- The set of a property, which is never known. -/
def propertySet (modes : Modes) (isValue : Bool) : Except Mistake CharacterSet :=
  if modes.unicode then
    .error (if isValue then .propertyValueUnavailable else .propertyUnavailable)
  else .error .unicodeNotAllowed

/-- The characters that the dot matches. -/
def anySet (modes : Modes) : Except Mistake CharacterSet :=
  if ¬ modes.unicode then .error .characterSplit
  else if modes.dotAll then .ok .full
  else .ok (CharacterSet.ofList (if modes.returns then ['\n', '\r'] else ['\n'])).complement

/-- What an atom on its own means. -/
def meaning (modes : Modes) : Atom -> Except Mistake Expression
  | .literal character fromByte => (literalSet modes character fromByte).map .member
  | .anyCharacter => (anySet modes).map .member
  | .lineStart => .ok (.look (if modes.linewise then .lineStart modes.returns else .textStart))
  | .lineStop => .ok (.look (if modes.linewise then .lineStop modes.returns else .textStop))
  | .textStart => .ok (.look .textStart)
  | .textStop => .ok (.look .textStop)
  | .boundary asked => .ok (.look (.word asked (!modes.unicode)))
  | .shorthand named negated => (shorthandSet modes named negated).map .member
  | .property isValue => (propertySet modes isValue).map .member

/-- What an atom means as a member of a class, if it can be one. -/
def membership? (modes : Modes) : Atom -> Option (Except Mistake CharacterSet)
  | .literal character fromByte => some (literalMember modes character fromByte)
  | .shorthand named negated => some (shorthandSet modes named negated)
  | .property isValue => some (propertySet modes isValue)
  | _ => none

end Atom

end Brainfuck.Text.Pattern
