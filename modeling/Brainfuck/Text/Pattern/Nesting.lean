import Brainfuck.Text.Pattern.Place

/-!
# Nesting

How deeply the parts of a pattern are nested in one another: for each depth, the
first part that lies so deep.
-/

namespace Brainfuck.Text.Pattern

/-- The first parts at the depths one, two and so on. -/
structure Nesting where
  firsts : List Span
  deriving DecidableEq, Repr

namespace Nesting

/-- The nesting of what has no parts and counts for nothing itself. -/
def flat : Nesting := ⟨[]⟩

/-- Of two lists of first parts, the earlier one decides where it goes deep enough. -/
def firstsBeside : List Span -> List Span -> List Span
  | [], later => later
  | earlier, [] => earlier
  | span :: earlier, _ :: later => span :: firstsBeside earlier later

/-- The nesting of two parts side by side. -/
def beside (earlier later : Nesting) : Nesting :=
  ⟨firstsBeside earlier.firsts later.firsts⟩

/-- The nesting of a part that has what lies within. -/
def around (span : Span) (within : Nesting) : Nesting :=
  ⟨span :: within.firsts⟩

/-- The first part beyond a depth. -/
def beyond? (limit : Nat) (nesting : Nesting) : Option Span :=
  nesting.firsts[limit]?

end Nesting

end Brainfuck.Text.Pattern
