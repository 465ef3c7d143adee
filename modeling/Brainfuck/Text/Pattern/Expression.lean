import Brainfuck.Text.CharacterSet

/-!
# Expressions

What a pattern means: which stretches of a text it matches. An expression leads
from places in a text to further places, and it occurs in the text if it leads
anywhere from anywhere. Which of several matches is preferred is of no account
here, so there are no lazy repetitions and no captures.
-/

namespace Brainfuck.Text.Pattern

/-- Where a word begins, ends, or does neither. -/
inductive Boundary where
  /-- Exactly one side is a word character. -/
  | either
  /-- Both sides are word characters, or neither is. -/
  | neither
  | start
  | stop
  /-- There is no word character before. -/
  | startHalf
  /-- There is no word character after. -/
  | stopHalf
  deriving DecidableEq, Repr

namespace Boundary

/-- Whether a place is such a boundary, by the word characters on its two sides. -/
def holds (wordBefore wordAfter : Bool) : Boundary -> Bool
  | .either => wordBefore != wordAfter
  | .neither => wordBefore == wordAfter
  | .start => !wordBefore && wordAfter
  | .stop => wordBefore && !wordAfter
  | .startHalf => !wordBefore
  | .stopHalf => !wordAfter

end Boundary

/-- What can be asked of a place. -/
inductive Look where
  | textStart
  | textStop
  /-- The start of a line; carriage returns may end lines, too. -/
  | lineStart (returns : Bool)
  /-- The end of a line. -/
  | lineStop (returns : Bool)
  /-- A boundary of words, which are of ASCII characters or of any. -/
  | word (boundary : Boundary) (ascii : Bool)
  deriving DecidableEq, Repr

/-- Letters, digits and the underscore of ASCII. -/
def isWordCharacter (character : Char) : Bool :=
  character.isAlphanum || character == '_'

namespace Look

/-- Whether a place has what is asked for, by the characters on its two sides. -/
def holds (before? after? : Option Char) : Look -> Bool
  | .textStart => before?.isNone
  | .textStop => after?.isNone
  | .lineStart false => before?.all (· == '\n')
  | .lineStart true =>
      before?.all fun before => before == '\n' || (before == '\r' && after? != some '\n')
  | .lineStop false => after?.all (· == '\n')
  | .lineStop true =>
      after?.all fun after => after == '\r' || (after == '\n' && before? != some '\r')
  | .word boundary _ =>
      boundary.holds (before?.any isWordCharacter) (after?.any isWordCharacter)

end Look

/-- The meaning of a pattern. -/
inductive Expression where
  | empty
  | member (set : CharacterSet)
  | look (look : Look)
  | sequence (first second : Expression)
  | choice (first second : Expression)
  /-- At least so many times, and perhaps at most so many. -/
  | repetition (body : Expression) (least : Nat) (most? : Option Nat)
  deriving DecidableEq, Repr

namespace Expression

/-- Places, with those of others that are not among them. -/
def joined (places others : List Nat) : List Nat :=
  places ++ others.filter fun place => !places.contains place

/-- The places after exactly so many steps. -/
def iterated (step : List Nat -> List Nat) : Nat -> List Nat -> List Nat
  | 0, places => places
  | count + 1, places => iterated step count (step places)

/-- The places after at most so many steps. -/
def gathered (step : List Nat -> List Nat) : Nat -> List Nat -> List Nat
  | 0, places => places
  | count + 1, places => joined places (gathered step count (step places))

/-- The places that an expression leads to. A repetition that goes on after more
passes than there are characters has a pass that matched nothing: so passes
beyond that number lead nowhere else, and are not made. -/
def reached (text : Array Char) : Expression -> List Nat -> List Nat
  | .empty, places => places
  | .member set, places =>
      places.filterMap fun place =>
        if (text[place]?).any set.contains then some (place + 1) else none
  | .look asked, places =>
      places.filter fun place =>
        asked.holds (if place = 0 then none else text[place - 1]?) text[place]?
  | .sequence first second, places => reached text second (reached text first places)
  | .choice first second, places => joined (reached text first places) (reached text second places)
  | .repetition body least most?, places =>
      let enough := text.size + 1
      let further :=
        match most? with
        | none => enough
        | some most => min (most - least) enough
      gathered (reached text body) further (iterated (reached text body) (min least enough) places)

/-- Whether an expression matches some stretch of a text. -/
def occursIn (expression : Expression) (text : String) : Bool :=
  let characters := text.toList.toArray
  !(expression.reached characters (List.range (characters.size + 1))).isEmpty

/-- Whether no stretch but an empty one can match. -/
def matchesOnlyEmpty : Expression -> Bool
  | .empty => true
  | .member _ => false
  | .look _ => true
  | .sequence first second => first.matchesOnlyEmpty && second.matchesOnlyEmpty
  | .choice first second => first.matchesOnlyEmpty && second.matchesOnlyEmpty
  | .repetition body _ most? => body.matchesOnlyEmpty || most? == some 0

/-- Whether boundaries of words are asked for that are not of ASCII characters.
What is repeated no times at all asks for nothing. -/
def asksForUnicodeWords : Expression -> Bool
  | .empty => false
  | .member _ => false
  | .look (.word _ ascii) => !ascii
  | .look _ => false
  | .sequence first second => first.asksForUnicodeWords || second.asksForUnicodeWords
  | .choice first second => first.asksForUnicodeWords || second.asksForUnicodeWords
  | .repetition body _ most? => body.asksForUnicodeWords && most? != some 0

/-- How many bytes a state of the compiled form takes. -/
def stateSize : Nat := 32

/-- How many bytes the compiled form of a set takes. One interval of ASCII needs
one state, several need a table besides, and a set beyond ASCII needs states
for all the forms that its characters have in bytes. -/
def setSize (set : CharacterSet) : Nat :=
  match set.intervals with
  | [⟨low, high, _⟩] =>
      if low = high then stateSize * (Char.ofNat low).utf8Size
      else if high < 0x80 then stateSize
      else 14 * stateSize
  | intervals =>
      if intervals.all (·.high < 0x80) then stateSize + 8 * intervals.length
      else 14 * stateSize

/-- How many bytes the compiled form of an expression takes. Repeated parts are
written out. -/
def size : Expression -> Nat
  | .empty => stateSize
  | .member set => setSize set
  | .look _ => stateSize
  | .sequence first second => first.size + second.size
  | .choice first second => stateSize + first.size + second.size
  | .repetition body least most? =>
      let passes := most?.getD (max least 1)
      let copies := if body.matchesOnlyEmpty then min passes 1 else passes
      stateSize + copies * body.size + (copies - least) * stateSize

end Expression

end Brainfuck.Text.Pattern
