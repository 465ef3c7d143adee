import Brainfuck.CommandLine.Tool

/-!
# The tool

The outermost layer: it hands the arguments to `Tool.respond` and prints what
comes of them. Only running a code is driven from here step by step, because its
input is read when the code asks for it and its output is shown at once.
-/

namespace Brainfuck.Main

open CommandLine

/-- The line of the log that shows an event. -/
def logLine (event : Event) : String :=
  "[" ++ event.severity.name ++ " " ++ event.target ++ "] " ++ event.message

/-- Shows the events that a filter lets through. -/
def showEvents (filter : LogFilter) (events : List Event) : IO Unit :=
  (events.filter filter.shows).forM fun event => IO.eprintln (logLine event)

/-- Prints a finished outcome. -/
def showOutcome (outcome : Outcome) : IO UInt32 := do
  outcome.log.forM fun event => IO.eprintln (logLine event)
  IO.eprint outcome.stderr
  let stdout ← IO.getStdout
  stdout.write (ByteArray.mk outcome.stdout)
  stdout.flush
  return outcome.exitCode

/-- Reads what the next instruction asks for, if it asks for input. -/
def supply (program : Program) (machine : Machine CellScript Buffer) :
    IO (Machine CellScript Buffer) := do
  match program.get? machine.now, machine with
  | some (.command .input), ⟨⟨tape, _, sink⟩, now⟩ =>
      let bytes ← (← IO.getStdin).read 1
      return ⟨⟨tape, ⟨[.ok (cellOfByte bytes.toList.head?)]⟩, sink⟩, now⟩
  | _, _ => return machine

/-- Prints what the last instruction put into the buffer, and empties it. -/
def drain (codec : Codec) (machine : Machine CellScript Buffer) :
    IO (Machine CellScript Buffer) := do
  match machine with
  | ⟨⟨tape, source, sink⟩, now⟩ =>
      if sink.text.isEmpty then
        return ⟨⟨tape, source, sink⟩, now⟩
      else
        let stdout ← IO.getStdout
        stdout.write (ByteArray.mk (sink.text.toList.flatMap codec.encode).toArray)
        stdout.flush
        return ⟨⟨tape, source, Buffer.empty⟩, now⟩

/-- Steps a machine to the end of its program. -/
partial def drive (filter : LogFilter) (codec : Codec) (program : Program) (taken : Nat)
    (machine : Machine CellScript Buffer) : IO Unit := do
  if machine.finished program then
    showEvents filter (Ending.finished taken).events
  else
    let attempt := (← supply program machine).step program
    showEvents filter attempt.events
    drive filter codec program (taken + 1) (← drain codec attempt.after)

/-- Runs a code between the standard streams. -/
def runCode (filter : LogFilter) (codec : Codec) (code : List Char) : IO UInt32 := do
  match Interpreter.build code .standard (CellScript.mk []) Buffer.empty with
  | .error fault =>
      IO.eprint (Tool.errorText fault.message)
      return 1
  | .ok interpreter =>
      showEvents filter [interpreter.program.compiled]
      try
        drive filter codec interpreter.program 0 interpreter.machine
        return 0
      catch failure =>
        IO.eprint (Tool.errorText (IoFailure.mk .other (toString failure)).message)
        return 1

/-- Carries out the words after the name of the program. -/
def start (words : List String) : IO UInt32 := do
  let environment? ← IO.getEnv "RUST_LOG"
  let arguments := Tool.defaultName :: words
  match Invocation.ofArguments arguments with
  | .ok ⟨logLevel?, .decode codec, payload⟩ =>
      let (filter, spoken) := Tool.filterFor environment? logLevel?
      IO.eprint spoken
      runCode filter codec (Invocation.payload ⟨logLevel?, .decode codec, payload⟩)
  | _ =>
      match Tool.respond 0 environment? arguments [] with
      | some outcome => showOutcome outcome
      | none => return 1

end Brainfuck.Main

def main (words : List String) : IO UInt32 :=
  Brainfuck.Main.start words
