import Brainfuck.Machine.Stepping

/-!
# Interpreters

From a code to a machine that is ready to run it, and from a code to the result
of running it. A malformed code is refused before anything is read or written.
-/

namespace Brainfuck

/-- A program and the machine that runs it. -/
structure Interpreter (σ τ : Type) where
  program : Program
  machine : Machine σ τ

namespace Interpreter

/-- Compiles a code and puts a machine at its first instruction. -/
def build {σ τ : Type} (code : List Char) (tape : Tape) (source : σ) (sink : τ) :
    Except Fault (Interpreter σ τ) :=
  match Program.parse code with
  | .error fault => .error fault
  | .ok program => .ok ⟨program, Machine.start tape source sink⟩

/-- A code that has a program is ready to run it. -/
theorem build_of_parse {σ τ : Type} {code : List Char} {program : Program}
    (parsed : Program.parse code = .ok program) (tape : Tape) (source : σ) (sink : τ) :
    build code tape source sink = .ok ⟨program, Machine.start tape source sink⟩ := by
  simp [build, parsed]

/-- What is logged while a code is compiled: one line, and none for a malformed
code. -/
def compilationEvents (code : List Char) : List Event :=
  match Program.parse code with
  | .error _ => []
  | .ok program => [program.compiled]

variable {σ τ : Type} [Source σ] [Sink τ]

/-- Runs the program from where its machine stands. -/
def run (fuel : Nat) (interpreter : Interpreter σ τ) : Run σ τ :=
  interpreter.machine.run interpreter.program fuel

/-- With enough fuel a run finishes after so many steps and leaves the machine
like this. -/
def Succeeds (interpreter : Interpreter σ τ) (steps : Nat) (final : Machine σ τ) : Prop :=
  ∃ fuel, (interpreter.run fuel).ending = .finished steps ∧
    (interpreter.run fuel).machine = final

/-- With enough fuel a run fails and leaves the machine like this. -/
def Fails (interpreter : Interpreter σ τ) (failure : IoFailure) (final : Machine σ τ) : Prop :=
  ∃ fuel, (interpreter.run fuel).ending = .failed failure ∧
    (interpreter.run fuel).machine = final

/-- No fuel is enough for a run to come to an end. -/
def Diverges (interpreter : Interpreter σ τ) : Prop :=
  forall fuel, (interpreter.run fuel).ending = .exhausted

end Interpreter

variable {σ τ : Type} [Source σ] [Sink τ]

/-- Runs a code on the standard tape between a source and a sink. -/
def decodeInto (fuel : Nat) (code : List Char) (source : σ) (sink : τ) :
    Except Fault (Run σ τ) :=
  match Interpreter.build code .standard source sink with
  | .error fault => .error fault
  | .ok interpreter => .ok (interpreter.run fuel)

/-- Runs a code and collects what it prints. -/
def decodeToText (fuel : Nat) (code : List Char) (source : σ) : Except Fault (Run σ Buffer) :=
  decodeInto fuel code source Buffer.empty

/-- Runs a code and streams what it prints through a codec. -/
def decodeWith {ω : Type} [Writer ω] (fuel : Nat) (code : List Char) (codec : Codec)
    (source : σ) (writer : ω) : Except Fault (Run σ (Stream ω)) :=
  decodeInto fuel code source (Stream.fresh writer codec)

/-- Runs a code and streams what it prints as ASCII. -/
def decode {ω : Type} [Writer ω] (fuel : Nat) (code : List Char) (source : σ) (writer : ω) :
    Except Fault (Run σ (Stream ω)) :=
  decodeWith fuel code .ascii source writer

end Brainfuck
