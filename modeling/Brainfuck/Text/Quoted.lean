/-!
# Quoted text

The form in which a text stands inside a report: between quotation marks, with
the characters that would break the form written as escapes. Everything from
U+0020 up stands for itself, the quotation mark and the backslash apart.
-/

namespace Brainfuck.Text.Quoted

/-- A character below U+0020 without a short escape is written by its code in
four hexadecimal places. -/
def controlEscape (character : Char) : List Char :=
  ['\\', 'u', '0', '0', Nat.digitChar (character.toNat / 16),
    Nat.digitChar (character.toNat % 16)]

/-- One character as it stands between the quotation marks. -/
def escape (character : Char) : List Char :=
  match character with
  | '"' => ['\\', '"']
  | '\\' => ['\\', '\\']
  | '\n' => ['\\', 'n']
  | '\r' => ['\\', 'r']
  | '\t' => ['\\', 't']
  | '\x08' => ['\\', 'b']
  | '\x0c' => ['\\', 'f']
  | other => if other.toNat < 0x20 then controlEscape other else [other]

/-- A whole text between quotation marks. -/
def quote (text : List Char) : List Char :=
  '"' :: (text.flatMap escape ++ ['"'])

end Brainfuck.Text.Quoted
