import Brainfuck.CommandLine.Invocation
import Brainfuck.CommandLine.LogFilter
import Brainfuck.Encoding
import Brainfuck.Machine.Interpreter

/-!
# The tool as a process

What a process of the tool does with its arguments, its standard input and the
log filter in its environment: the bytes it prints, what it says on the error
stream besides the log, the events it logs, and its exit code.
-/

namespace Brainfuck.CommandLine

/-- What a process leaves behind. -/
structure Outcome where
  exitCode : UInt32
  stdout : Array UInt8
  /-- The error stream without the log. -/
  stderr : String
  /-- The events that were logged and shown. -/
  log : List Event

/-- Shows of a log what a filter lets through, after what was said before. -/
def Outcome.filtered (filter : LogFilter) (spoken : String) (outcome : Outcome) : Outcome where
  exitCode := outcome.exitCode
  stdout := outcome.stdout
  stderr := spoken ++ outcome.stderr
  log := outcome.log.filter filter.shows

namespace Tool

/-- The name of the tool, where its command line does not give one. -/
def defaultName : String := "bfa"

/-- What the tool prints about its version. -/
def versionText : String := "bfascii 0.1.0\n"

/-- How to call the tool under the name it was called by. -/
def usageText (name : String) : String :=
  "Brainfuck Interpreter\nUsage:\n" ++
    "\t" ++ name ++ " [e]ncode [ASCII]\n" ++
    "\t" ++ name ++ " [d]ecode [BRAINFUCK]\n" ++
    "\t" ++ name ++ " [c]heck [BRAINFUCK]\n"

/-- The bytes of a text that is printed. -/
def printed (text : String) : Array UInt8 :=
  text.toUTF8.data

/-- The report of an error that ends the process. -/
def errorText (message : String) : String :=
  "Error: " ++ message ++ "\n"

/-- The filter in force: the one of the environment, with the level of the
command line as its fallback if there is one; and what is said about the parts
that cannot be read. The environment is looked at twice, before the standard filter
is laid down and again on top of it, so everything is said twice. -/
def filterFor (environment? : Option String) (logLevel? : Option Severity) :
    LogFilter × String :=
  let (filter, complaints) := LogFilter.ofText? environment?
  let spoken := String.join ((complaints ++ complaints).map (· ++ "\n"))
  match logLevel? with
  | none => (filter, spoken)
  | some level => (filter.withFallback (.upTo level), spoken)

/-- What a refused command line comes to. Usage and requests go to the standard
output; diagnostics go to the error stream. -/
def refused (name : String) (refusal : Refusal) : Outcome :=
  match refusal with
  | .helpRequested => ⟨0, printed (usageText name), "", []⟩
  | .versionRequested => ⟨0, printed versionText, "", []⟩
  | mistake =>
      match mistake.diagnostic? with
      | none => ⟨1, printed (usageText name), "", []⟩
      | some line => ⟨2, #[], line ++ "\n", []⟩

/-- Prints the code of a text. -/
def encode (text : List Char) : Outcome :=
  let code := Encoding.encode text
  ⟨0, printed (String.ofList code), "", [.encoded code.length]⟩

/-- Prints the report on a code; the exit code tells whether it is valid. -/
def check (code : List Char) : Outcome :=
  let report := Brainfuck.check code
  ⟨if report.valid then 0 else 1, printed (report.json ++ "\n"), "", []⟩

/-- Runs a code between the standard input and the standard output, which keeps what is
written to it. There is no outcome if the fuel does not last. -/
def decode (fuel : Nat) (codec : Codec) (stdin : List UInt8) (code : List Char) :
    Option Outcome :=
  match decodeWith fuel code codec (Bytes.mk stdin) Spool.empty with
  | .error fault => some ⟨1, #[], errorText fault.message, []⟩
  | .ok run =>
      let stdout := run.machine.state.sink.writer.written
      let log := Interpreter.compilationEvents code ++ run.log
      match run.ending with
      | .finished _ => some ⟨0, stdout, "", log⟩
      | .failed failure => some ⟨1, stdout, errorText failure.message, log⟩
      | .exhausted => none

/-- Carries out an action on a payload. -/
def perform (fuel : Nat) (stdin : List UInt8) (payload : List Char) :
    Action -> Option Outcome
  | .encode => some (encode payload)
  | .check => some (check payload)
  | .decode codec => decode fuel codec stdin payload

/-- What a process comes to, given its environment's log filter, all its
arguments, and the bytes on its standard input. -/
def respond (fuel : Nat) (environment? : Option String) (arguments : List String)
    (stdin : List UInt8) : Option Outcome :=
  match Invocation.ofArguments arguments with
  | .error refusal => some (refused (arguments.headD defaultName) refusal)
  | .ok invocation =>
      let (filter, spoken) := filterFor environment? invocation.logLevel?
      (perform fuel stdin invocation.payload invocation.action).map
        (·.filtered filter spoken)

/-- What a process does once its arguments are read. -/
theorem respond_of_ofArguments {fuel : Nat} {environment? : Option String}
    {arguments : List String} {stdin : List UInt8} {invocation : Invocation}
    (read : Invocation.ofArguments arguments = .ok invocation) :
    respond fuel environment? arguments stdin =
      (perform fuel stdin invocation.payload invocation.action).map
        (·.filtered (filterFor environment? invocation.logLevel?).1
          (filterFor environment? invocation.logLevel?).2) := by
  simp only [respond, read]

/-- What a process comes to once its action has been carried out. -/
theorem respond_of_performed {fuel : Nat} {environment? : Option String}
    {arguments : List String} {stdin : List UInt8} {invocation : Invocation} {outcome : Outcome}
    (read : Invocation.ofArguments arguments = .ok invocation)
    (performs : perform fuel stdin invocation.payload invocation.action = some outcome) :
    respond fuel environment? arguments stdin =
      some (outcome.filtered (filterFor environment? invocation.logLevel?).1
        (filterFor environment? invocation.logLevel?).2) := by
  rw [respond_of_ofArguments read, performs]
  rfl

end Tool

end Brainfuck.CommandLine
