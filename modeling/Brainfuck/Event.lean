/-!
# Events

What is worth a line in a log, how severe it is, which part of the tool reports
it, and in which words. Events are values that the operations return; which of
them are shown is decided where they are printed.
-/

namespace Brainfuck

/-- Severities, the most severe first. -/
inductive Severity where
  | error
  | warn
  | info
  | debug
  | trace
  deriving DecidableEq, Repr

namespace Severity

/-- All severities, the most severe first. -/
def all : List Severity :=
  [.error, .warn, .info, .debug, .trace]

/-- The place of a severity among all of them. -/
def rank : Severity -> Nat
  | .error => 0
  | .warn => 1
  | .info => 2
  | .debug => 3
  | .trace => 4

/-- The name of a severity in a log line. -/
def name : Severity -> String
  | .error => "ERROR"
  | .warn => "WARN"
  | .info => "INFO"
  | .debug => "DEBUG"
  | .trace => "TRACE"

/-- The severity of a name, in whichever case its letters are. -/
def ofName? (name : String) : Option Severity :=
  all.find? fun severity => severity.name == String.ofList (name.toList.map Char.toUpper)

end Severity

/-- Something that happened while a code was compiled, run or written. -/
inductive Event where
  /-- A program of so many instructions, with so many loops, was compiled. -/
  | compiled (instructions loops : Nat)
  /-- A run reached the end of its program after so many steps. -/
  | finished (steps : Nat)
  /-- A loop was entered on a zero cell: the places of its two brackets. -/
  | loopSkipped (opening closing : Nat)
  /-- A move went over an end of the tape. -/
  | pointerWrapped (before after : Nat)
  /-- The source gave a carriage return. -/
  | carriageReturnRead
  /-- A text was written as a code of so many characters. -/
  | encoded (length : Nat)
  deriving DecidableEq, Repr

namespace Event

/-- How severe an event is. -/
def severity : Event -> Severity
  | .compiled .. => .debug
  | .finished .. => .debug
  | .loopSkipped .. => .trace
  | .pointerWrapped .. => .trace
  | .carriageReturnRead => .warn
  | .encoded .. => .info

/-- The part of the tool that reports an event. -/
def target : Event -> String
  | .compiled .. => "bfascii::instruction"
  | .finished .. => "bfascii::interpreter"
  | .loopSkipped .. => "bfascii::interpreter"
  | .carriageReturnRead => "bfascii::interpreter"
  | .pointerWrapped .. => "bfascii::interpreter::tape"
  | .encoded .. => "bfa"

/-- The words of an event. -/
def message : Event -> String
  | .compiled instructions loops =>
      "compiled " ++ toString instructions ++ " instructions, " ++ toString loops ++ " loops"
  | .finished steps => "finished after " ++ toString steps ++ " steps"
  | .loopSkipped opening closing =>
      "skip loop " ++ toString opening ++ " -> " ++ toString closing
  | .pointerWrapped before after =>
      "pointer wrapped " ++ toString before ++ " -> " ++ toString after
  | .carriageReturnRead => "read \\r from input"
  | .encoded length => toString length ++ " instructions"

/-- Whether an event is at least as severe as a threshold. -/
def reaches (threshold : Severity) (event : Event) : Bool :=
  event.severity.rank ≤ threshold.rank

/-- The line of an event: its severity and its words. -/
def line (event : Event) : String :=
  event.severity.name ++ " " ++ event.message

end Event

end Brainfuck
