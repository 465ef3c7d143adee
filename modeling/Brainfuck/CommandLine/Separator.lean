import Brainfuck.CommandLine.Word

/-!
# Subcommands and the separator before their payload

The reader of options drops the first separator after a subcommand. A payload
may begin with that very word, so it is doubled before the words are read. The
place is found by a scan of its own: after the first word that names a
subcommand, past any codec options.
-/

namespace Brainfuck.CommandLine

/-- What the tool can be asked to do. -/
inductive Subcommand where
  | encode
  | decode
  | check
  deriving DecidableEq, Repr

namespace Subcommand

/-- A subcommand by its full name or by its first letter. -/
def ofName? : String -> Option Subcommand
  | "encode" => some .encode
  | "e" => some .encode
  | "decode" => some .decode
  | "d" => some .decode
  | "check" => some .check
  | "c" => some .check
  | _ => none

end Subcommand

/-- The word that ends the options. -/
def separator : String := "--"

/-- Doubles a separator at the head of a payload, past codec options and their
values. -/
def protectPayload : List String -> List String
  | [] => []
  | "--codec" :: value :: rest => "--codec" :: value :: protectPayload rest
  | word :: rest =>
      match Shape.ofWord word with
      | .long "codec" (some _) => word :: protectPayload rest
      | .separator => separator :: word :: rest
      | _ => word :: rest

/-- Doubles a separator at the head of the payload, after the first word that
names a subcommand. Words are unchanged if none does. -/
def protectSeparator : List String -> List String
  | [] => []
  | word :: rest =>
      match Subcommand.ofName? word with
      | some _ => word :: protectPayload rest
      | none => word :: protectSeparator rest

/-- The same for all arguments, of which the first names the program. -/
def protectArguments : List String -> List String
  | [] => []
  | program :: words => program :: protectSeparator words

end Brainfuck.CommandLine
