/-!
# Visible text

What is left of a text when everything is taken out of it that would steer a
terminal: control characters, and the sequences that begin with an escape
character. White space stays, and so does every character beyond ASCII.
-/

namespace Brainfuck.Text.Visible

/-- Where in a sequence a character of a text stands. -/
inductive Stage where
  /-- Outside of every sequence. -/
  | ground
  /-- After the escape character. -/
  | escape
  /-- After the escape character and at least one character of a short sequence. -/
  | short
  /-- In a sequence with parameters. -/
  | parameters
  /-- In a command to the system, which a bell ends. -/
  | command
  /-- In a string to the device, which nothing but another control ends. -/
  | device
  deriving DecidableEq, Repr

/-- Whether the code of a character lies within bounds. -/
def within (low high : Nat) (character : Char) : Bool :=
  low ≤ character.toNat && character.toNat ≤ high

/-- The controls that are white space. -/
def isSpacing (character : Char) : Bool :=
  character == '\t' || character == '\n' || character == '\x0c' || character == '\r'

/-- Whether a character outside of every sequence is shown. -/
def isShown (character : Char) : Bool :=
  isSpacing character || (0x20 ≤ character.toNat && character != '\x7f')

/-- Whether the form of a character in bytes has the byte of the string terminator. -/
def hasTerminator (character : Char) : Bool :=
  (String.singleton character).toUTF8.data.contains 0x9c

/-- The stage after the character that follows an escape character. -/
def opened (character : Char) : Stage :=
  if within 0x20 0x2f character then .short
  else if character == '[' then .parameters
  else if character == ']' then .command
  else if character == 'P' || character == 'X' || character == '^' || character == '_' then
    .device
  else if within 0x30 0x7e character then .ground
  else .escape

/-- The stage after a character that is no part of white space, and that neither
begins nor abandons a sequence. -/
def Stage.after (character : Char) : Stage -> Stage
  | .ground => .ground
  | .escape => opened character
  | .short => if within 0x30 0x7e character then .ground else .short
  | .parameters => if within 0x40 0x7e character then .ground else .parameters
  | .command => if character == '\x07' then .ground else .command
  | .device => if hasTerminator character then .ground else .device

/-- Whether white space is shown at a stage, and ends the sequence. -/
def Stage.yieldsToSpacing : Stage -> Bool
  | .ground => true
  | .escape => true
  | .short => true
  | .parameters => true
  | .command => false
  | .device => false

/-- The visible part of a text that begins at a stage. -/
def visibleFrom (stage : Stage) : List Char -> List Char
  | [] => []
  | character :: rest =>
      if character == '\x1b' then visibleFrom .escape rest
      else if character == '\x18' || character == '\x1a' then visibleFrom .ground rest
      else if isSpacing character && stage.yieldsToSpacing then
        character :: visibleFrom .ground rest
      else if stage = .ground && isShown character then
        character :: visibleFrom .ground rest
      else visibleFrom (stage.after character) rest

/-- The visible part of a text. -/
def visible (text : String) : String :=
  String.ofList (visibleFrom .ground text.toList)

end Brainfuck.Text.Visible
