/-!
# Places in a pattern

Where in the text of a pattern something stands, by line and column, and the
stretches between two places.
-/

namespace Brainfuck.Text.Pattern

/-- A line and a column in it, both counted from one. -/
structure Place where
  line : Nat
  column : Nat
  deriving DecidableEq, Repr

namespace Place

/-- The place of the first character. -/
def first : Place := ⟨1, 1⟩

/-- The place after a character that stands at a place. -/
def past (place : Place) (character : Char) : Place :=
  if character = '\n' then ⟨place.line + 1, 1⟩ else ⟨place.line, place.column + 1⟩

/-- The place after a text that begins at a place. -/
def pastAll (place : Place) (text : List Char) : Place :=
  text.foldl past place

end Place

/-- The stretch from one place up to another, which is not part of it. -/
structure Span where
  start : Place
  stop : Place
  deriving DecidableEq, Repr

namespace Span

/-- The empty stretch at a place. -/
def empty (place : Place) : Span := ⟨place, place⟩

/-- Whether a stretch stays in one line. -/
def inOneLine (span : Span) : Bool :=
  span.start.line == span.stop.line

end Span

end Brainfuck.Text.Pattern
