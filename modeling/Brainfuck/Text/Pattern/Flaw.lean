import Brainfuck.Text.Pattern.Place

/-!
# Flaws of a pattern

Why a text is no pattern, and where in it the mistake stands. A flaw is
described by the text with the mistake underlined, and by what is wrong.
-/

namespace Brainfuck.Text.Pattern

/-- What can be wrong with the text of a pattern. -/
inductive Mistake where
  | backreference
  | boundaryOrCountUnclosed
  | boundaryUnclosed
  | boundaryUnknown
  /-- A place in the text is asked for where a class needs characters. -/
  | classMemberInvalid
  | classRangeReversed
  | classRangeUnbounded
  | classUnclosed
  /-- A pattern of bytes could match in the middle of a character. -/
  | characterSplit
  | countMissing
  | countReversed
  | countTooLarge
  | countUnclosed
  | escapeIncomplete
  | escapeUnknown
  | flagMissing
  | flagRepeated
  | flagUnknown
  | foldingUnavailable
  | groupNameEmpty
  | groupNameInvalid
  | groupNameRepeated
  | groupNameUnclosed
  | groupUnclosed
  | groupUnopened
  | hexadecimalDigitInvalid
  | hexadecimalEmpty
  | hexadecimalNoCharacter
  | lookAround
  | negationDangling
  | negationRepeated
  | nestedTooDeeply
  | operandMissing
  | propertyInvalid
  | propertyUnavailable
  | propertyValueUnavailable
  | shorthandUnavailable
  /-- A character or class beyond ASCII stands in a pattern of bytes. -/
  | unicodeNotAllowed
  deriving DecidableEq, Repr

/-- How deeply the parts of a pattern may be nested. -/
def nestingLimit : Nat := 250

namespace Mistake

/-- What is wrong, in words. -/
def words : Mistake -> String
  | .backreference => "backreferences are not supported"
  | .boundaryOrCountUnclosed =>
      "found either the beginning of a special word boundary or a bounded repetition " ++
        "on a \\b with an opening brace, but no closing brace"
  | .boundaryUnclosed =>
      "special word boundary assertion is either unclosed or contains an invalid character"
  | .boundaryUnknown =>
      "unrecognized special word boundary assertion, valid choices are: " ++
        "start, end, start-half or end-half"
  | .classMemberInvalid => "invalid escape sequence found in character class"
  | .classRangeReversed => "invalid character class range, the start must be <= the end"
  | .classRangeUnbounded => "invalid range boundary, must be a literal"
  | .classUnclosed => "unclosed character class"
  | .characterSplit => "pattern can match invalid UTF-8"
  | .countMissing => "repetition quantifier expects a valid decimal"
  | .countReversed => "invalid repetition count range, the start must be <= the end"
  | .countTooLarge => "decimal literal invalid"
  | .countUnclosed => "unclosed counted repetition"
  | .escapeIncomplete => "incomplete escape sequence, reached end of pattern prematurely"
  | .escapeUnknown => "unrecognized escape sequence"
  | .flagMissing => "expected flag but got end of regex"
  | .flagRepeated => "duplicate flag"
  | .flagUnknown => "unrecognized flag"
  | .foldingUnavailable =>
      "Unicode-aware case insensitivity matching is not available " ++
        "(make sure the unicode-case feature is enabled)"
  | .groupNameEmpty => "empty capture group name"
  | .groupNameInvalid => "invalid capture group character"
  | .groupNameRepeated => "duplicate capture group name"
  | .groupNameUnclosed => "unclosed capture group name"
  | .groupUnclosed => "unclosed group"
  | .groupUnopened => "unopened group"
  | .hexadecimalDigitInvalid => "invalid hexadecimal digit"
  | .hexadecimalEmpty => "hexadecimal literal empty"
  | .hexadecimalNoCharacter => "hexadecimal literal is not a Unicode scalar value"
  | .lookAround =>
      "look-around, including look-ahead and look-behind, is not supported"
  | .negationDangling => "dangling flag negation operator"
  | .negationRepeated => "flag negation operator repeated"
  | .nestedTooDeeply =>
      "exceed the maximum number of nested parentheses/brackets (" ++
        toString nestingLimit ++ ")"
  | .operandMissing => "repetition operator missing expression"
  | .propertyInvalid => "invalid Unicode character class"
  | .propertyUnavailable => "Unicode property not found"
  | .propertyValueUnavailable => "Unicode property value not found"
  | .shorthandUnavailable =>
      "Unicode-aware Perl class not found (make sure the unicode-perl feature is enabled)"
  | .unicodeNotAllowed => "Unicode not allowed here"

end Mistake

/-- A mistake with its place, and with the place of what it conflicts with. -/
structure Flaw where
  mistake : Mistake
  span : Span
  earlier? : Option Span
  deriving DecidableEq, Repr

namespace Flaw

/-- A mistake that conflicts with nothing else. -/
def alone (mistake : Mistake) (span : Span) : Flaw :=
  ⟨mistake, span, none⟩

/-- The places of a flaw, in the order of the text. -/
def spans (flaw : Flaw) : List Span :=
  flaw.earlier?.toList ++ [flaw.span]

/-- The lines of a text, without their ends. A text that ends with a line has no
empty line after it. -/
def linesOf (text : List Char) : List (List Char) :=
  let parts := text.splitOn '\n'
  let ended := parts.dropLast.map fun part =>
    if part.getLast? = some '\r' then part.dropLast else part
  match parts.getLast?.getD [] with
  | [] => ended
  | last => ended ++ [last]

/-- Carets under stretches of one line, of which `done` columns are behind. Each
stretch has at least one. -/
def underlineFrom (done : Nat) : List Span -> List Char
  | [] => []
  | span :: rest =>
      let blanks := span.start.column - 1 - done
      let carets := max 1 (span.stop.column - span.start.column)
      List.replicate blanks ' ' ++ List.replicate carets '^' ++
        underlineFrom (done + blanks + carets) rest

/-- Digits, behind blanks up to a width. -/
def padded (width number : Nat) : List Char :=
  let digits := (toString number).toList
  List.replicate (width - digits.length) ' ' ++ digits

/-- How wide the numbers of the lines are; the line of a text without others has
no number. A place may stand after the last line end. -/
def numberWidth (text : List Char) : Nat :=
  let count := (linesOf text).length + (if text.getLast? = some '\n' then 1 else 0)
  if count ≤ 1 then 0 else (toString count).length

/-- What stands in front of a line. -/
def margin (width number : Nat) : List Char :=
  if width = 0 then List.replicate 4 ' ' else padded width number ++ [':', ' ']

/-- Lines from a number on, each followed by the carets under it. -/
def notated (width : Nat) (spans : List Span) (number : Nat) :
    List (List Char) -> List (List Char)
  | [] => []
  | line :: rest =>
      let shown := margin width number ++ line
      let following := notated width spans (number + 1) rest
      match spans.filter (·.start.line == number) with
      | [] => shown :: following
      | here =>
          let indent := List.replicate (margin width number).length ' '
          shown :: (indent ++ underlineFrom 0 here) :: following

/-- A stretch over several lines, in words. -/
def range (span : Span) : String :=
  "on line " ++ toString span.start.line ++ " (column " ++ toString span.start.column ++
    ") through line " ++ toString span.stop.line ++ " (column " ++
    toString (span.stop.column - 1) ++ ")"

/-- The description of a flaw of a text. Several lines stand between two dividers. -/
def describe (text : List Char) (flaw : Flaw) : String :=
  let (single, several) := flaw.spans.partition Span.inOneLine
  let lines := (notated (numberWidth text) single 1 (linesOf text)).map String.ofList
  let body :=
    if text.contains '\n' then
      let divider := String.ofList (List.replicate 79 '~')
      divider :: lines ++ [divider] ++ several.map range
    else lines
  String.intercalate "\n"
    ("regex parse error:" :: body ++ ["error: " ++ flaw.mistake.words])

end Flaw

end Brainfuck.Text.Pattern
