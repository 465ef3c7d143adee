/-!
# Modes of a pattern

What flags inside of a pattern switch on and off for the part that follows them.
-/

namespace Brainfuck.Text.Pattern

/-- The flags, by what they switch on. -/
inductive Flag where
  /-- Both cases of a letter match. -/
  | foldedCase
  /-- The anchors match at the ends of lines. -/
  | linewise
  /-- The dot matches line feeds. -/
  | dotAll
  /-- Repetitions are lazy, and the lazy ones are not. -/
  | lazy
  /-- The pattern is one of characters and not of bytes. -/
  | unicode
  /-- Carriage returns end lines. -/
  | returns
  /-- Blanks and comments in the pattern mean nothing. -/
  | spaced
  deriving DecidableEq, Repr

/-- A flag by its letter. -/
def Flag.ofLetter? : Char -> Option Flag
  | 'i' => some .foldedCase
  | 'm' => some .linewise
  | 's' => some .dotAll
  | 'U' => some .lazy
  | 'u' => some .unicode
  | 'R' => some .returns
  | 'x' => some .spaced
  | _ => none

/-- Which flags are on. Whether repetitions are lazy is not kept, because it makes
no difference to whether a pattern matches. -/
structure Modes where
  foldedCase : Bool
  linewise : Bool
  dotAll : Bool
  unicode : Bool
  returns : Bool
  spaced : Bool
  deriving DecidableEq, Repr

namespace Modes

/-- The modes at the start of a pattern, which is one of characters. -/
def standard : Modes where
  foldedCase := false
  linewise := false
  dotAll := false
  unicode := true
  returns := false
  spaced := false

/-- The modes after one flag is switched. -/
def switched (modes : Modes) (on : Bool) : Flag -> Modes
  | .foldedCase => { modes with foldedCase := on }
  | .linewise => { modes with linewise := on }
  | .dotAll => { modes with dotAll := on }
  | .lazy => modes
  | .unicode => { modes with unicode := on }
  | .returns => { modes with returns := on }
  | .spaced => { modes with spaced := on }

/-- The modes after a list of flags, in which the negation sign, given by `none`,
turns the ones behind it off. -/
def following (modes : Modes) (on : Bool) : List (Option Flag) -> Modes
  | [] => modes
  | none :: rest => modes.following false rest
  | some flag :: rest => (modes.switched on flag).following on rest

end Modes

end Brainfuck.Text.Pattern
