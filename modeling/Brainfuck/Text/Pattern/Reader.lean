import Brainfuck.Text.Blank
import Brainfuck.Text.Pattern.Flaw
import Brainfuck.Text.Pattern.Modes

/-!
# Reading a pattern

How far a pattern has been read: the rest of its text, the place in it, and the
modes in force. Parts that are well formed but mean nothing are objected to; the
first objection is kept, since it counts only if the whole pattern is well
formed.
-/

namespace Brainfuck.Text.Pattern

/-- How far a pattern has been read. -/
structure Reader where
  rest : List Char
  place : Place
  modes : Modes
  /-- The names of the groups so far, and their places. -/
  names : List (List Char × Span)
  objection? : Option Flaw

namespace Reader

/-- A reader before the first character. -/
def start (text : List Char) : Reader where
  rest := text
  place := .first
  modes := .standard
  names := []
  objection? := none

/-- Whether nothing is left. -/
def atEnd (reader : Reader) : Bool :=
  reader.rest.isEmpty

/-- The next character. -/
def head? (reader : Reader) : Option Char :=
  reader.rest.head?

/-- The empty stretch before the next character. -/
def here (reader : Reader) : Span :=
  .empty reader.place

/-- The stretch of the next character. -/
def headSpan (reader : Reader) : Span :=
  match reader.rest with
  | [] => reader.here
  | character :: _ => ⟨reader.place, reader.place.past character⟩

/-- The stretch from a place up to the next character. -/
def since (reader : Reader) (start : Place) : Span :=
  ⟨start, reader.place⟩

/-- The reader after the next character. -/
def advance (reader : Reader) : Reader :=
  match reader.rest with
  | [] => reader
  | character :: rest => { reader with rest := rest, place := reader.place.past character }

/-- The reader after a number of characters. -/
def advanceBy (count : Nat) (reader : Reader) : Reader where
  rest := reader.rest.drop count
  place := reader.place.pastAll (reader.rest.take count)
  modes := reader.modes
  names := reader.names
  objection? := reader.objection?

/-- The reader after a text, if that is what comes next. -/
def after? (text : String) (reader : Reader) : Option Reader :=
  let characters := text.toList
  if characters.isPrefixOf reader.rest then some (reader.advanceBy characters.length)
  else none

/-- What is left of a text after the blanks and comments it begins with, and the
place of that. A comment goes on to the end of its line. -/
def skippedFrom (inComment : Bool) (place : Place) : List Char -> List Char × Place
  | [] => ([], place)
  | character :: rest =>
      if inComment then skippedFrom (character != '\n') (place.past character) rest
      else if isBlank character then skippedFrom false (place.past character) rest
      else if character == '#' then skippedFrom true (place.past character) rest
      else (character :: rest, place)

/-- The reader after blanks and comments, where they mean nothing. -/
def skip (reader : Reader) : Reader :=
  if reader.modes.spaced then
    let (rest, place) := skippedFrom false reader.place reader.rest
    { reader with rest := rest, place := place }
  else reader

/-- The reader after the next character and what is skipped behind it. -/
def proceed (reader : Reader) : Reader :=
  reader.advance.skip

/-- The characters up to the first that is not accepted, and the reader there. -/
def span (accepts : Char -> Bool) (reader : Reader) : List Char × Reader :=
  let taken := reader.rest.takeWhile accepts
  (taken, reader.advanceBy taken.length)

/-- The same with blanks and comments skipped behind each character, if there are
no more than so many characters. -/
def spanSkippingUpTo (accepts : Char -> Bool) : Nat -> Reader -> List Char × Reader
  | 0, reader => ([], reader)
  | count + 1, reader =>
      match reader.head? with
      | none => ([], reader)
      | some character =>
          if accepts character then
            let (taken, final) := spanSkippingUpTo accepts count reader.proceed
            (character :: taken, final)
          else ([], reader)

/-- The characters up to the first that is not accepted, with blanks and comments
skipped behind each of them. -/
def spanSkipping (accepts : Char -> Bool) (reader : Reader) : List Char × Reader :=
  spanSkippingUpTo accepts reader.rest.length reader

/-- Keeps the first objection. -/
def objecting (flaw : Flaw) (reader : Reader) : Reader :=
  match reader.objection? with
  | some _ => reader
  | none => { reader with objection? := some flaw }

/-- The meaning of a part, or another one in its place and an objection. -/
def settle {α : Type} (reader : Reader) (span : Span) (instead : α) :
    Except Mistake α -> α × Reader
  | .ok meaning => (meaning, reader)
  | .error mistake => (instead, reader.objecting (.alone mistake span))

/-! ### Numbers -/

/-- The largest count. -/
def largestCount : Nat := 0xffffffff

/-- The number that digits write in a base. -/
def numberOf (base : Nat) (digitValue : Char -> Nat) (digits : List Char) : Nat :=
  digits.foldl (fun number digit => number * base + digitValue digit) 0

/-- The value of a decimal digit. -/
def decimalValue (digit : Char) : Nat :=
  digit.toNat - '0'.toNat

/-- Whether a character is a hexadecimal digit. -/
def isHexadecimal (character : Char) : Bool :=
  character.isDigit || ('a' ≤ character && character ≤ 'f') ||
    ('A' ≤ character && character ≤ 'F')

/-- The value of a hexadecimal digit, in either case. -/
def hexadecimalValue (digit : Char) : Nat :=
  if digit.isDigit then decimalValue digit
  else digit.toLower.toNat - 'a'.toNat + 10

/-- Reads a count between blanks, which are skipped in any mode. The reader goes
on behind the place of a count that is missing or too large. -/
def number (reader : Reader) : Except Flaw Nat × Reader :=
  let (_, reader) := reader.span isBlank
  let start := reader.place
  let (digits, reader) := reader.spanSkipping Char.isDigit
  let place := reader.since start
  let (_, reader) := reader.span isBlank
  let value := numberOf 10 decimalValue digits
  let count :=
    if digits.isEmpty then .error (.alone .countMissing place)
    else if largestCount < value then .error (.alone .countTooLarge place)
    else .ok value
  (count, reader)

end Reader

end Brainfuck.Text.Pattern
