/-!
# Words of a command line

What a word looks like to the reader of options, by its leading hyphens: the
bare separator, a long name with perhaps a value attached, a cluster of single
letters, or a plain word. A lone hyphen and the empty word are plain.
-/

namespace Brainfuck.CommandLine

/-- The forms of a word that options are told by. -/
inductive Shape where
  /-- Two hyphens and nothing else. -/
  | separator
  /-- Two hyphens and a name, with what follows the first equals sign. -/
  | long (name : String) (value? : Option String)
  /-- One hyphen and at least one letter. -/
  | short (letter : Char) (others : List Char)
  /-- Anything else. -/
  | plain
  deriving DecidableEq, Repr

namespace Shape

/-- The form of what follows two hyphens. -/
def afterHyphens (text : List Char) : Shape :=
  match text with
  | [] => .separator
  | _ :: _ =>
      let name := String.ofList (text.takeWhile (· ≠ '='))
      match text.dropWhile (· ≠ '=') with
      | [] => .long name none
      | _ :: value => .long name (some (String.ofList value))

/-- The form of a word, given by its characters. -/
def ofChars : List Char -> Shape
  | '-' :: '-' :: text => afterHyphens text
  | '-' :: letter :: others => .short letter others
  | _ => .plain

/-- The form of a word. -/
def ofWord (word : String) : Shape :=
  ofChars word.toList

end Shape

end Brainfuck.CommandLine
