import Brainfuck.CommandLine.Tool
import Brainfuck.Proofs.Semantics.Moments

/-!
# One verdict on a code

Every way into the library judges a code alike. `RejectedWith` collects what all of
them do with a code that has a fault: each refuses it with that very fault, before
there is a machine that could read or write. `AdmittedAs` collects what they do with
a code that has a program: none refuses it, then or later, since the program cannot
fail by itself. `entryPoints_agree` says that every code is judged in one of these two
ways.
-/

namespace Brainfuck

open CommandLine

/-- Whatever its fuel, environment and standard input, a process that is asked for an
action on a text comes to an allowed outcome. What was said before about the log
filter is given along with the outcome. -/
def CommandLine.Answers (action : Action) (payload : List Char)
    (allowed : String -> Outcome -> Prop) : Prop :=
  ∀ fuel environment? arguments stdin invocation,
    Invocation.ofArguments arguments = .ok invocation -> invocation.action = action ->
    invocation.payload = payload ->
    ∃ outcome, Tool.respond fuel environment? arguments stdin = some outcome ∧
      allowed (Tool.filterFor environment? invocation.logLevel?).2 outcome

example : ∃ invocation, Invocation.ofArguments ["bfa", "d", "--", "[", ""] = .ok invocation ∧
    invocation.action = .decode .ascii ∧ invocation.payload = ['-', '-', ' ', '[', ' '] :=
  ⟨_, rfl, rfl, by decide⟩

/-- The same of the processes that come to an outcome. -/
def CommandLine.MayAnswer (action : Action) (payload : List Char)
    (allowed : String -> Outcome -> Prop) : Prop :=
  ∀ fuel environment? arguments stdin invocation,
    Invocation.ofArguments arguments = .ok invocation -> invocation.action = action ->
    invocation.payload = payload ->
    ∀ outcome, Tool.respond fuel environment? arguments stdin = some outcome ->
      allowed (Tool.filterFor environment? invocation.logLevel?).2 outcome

/-- A process prints the report on a text and exits with this code. -/
def CommandLine.Reports (payload : List Char) (exitCode : UInt32) : Prop :=
  Answers .check payload fun spoken outcome =>
    outcome.exitCode = exitCode ∧ outcome.stdout = Tool.printed ((check payload).json ++ "\n") ∧
      outcome.stderr = spoken ∧ outcome.log = []

/-- Every entry point refuses a code with the same fault, whatever else it is given.
That holds for every source and sink and without any fuel, so nothing is read, written
or flushed. -/
structure RejectedWith (code : List Char) (fault : Fault) : Prop where
  validate : Brainfuck.validate code = .error fault
  check : Brainfuck.check code = ⟨some fault.message⟩
  parse : Program.parse code = .error fault
  build : ∀ {σ τ : Type} (tape : Tape) (source : σ) (sink : τ),
    Interpreter.build code tape source sink = .error fault
  decodeToText : ∀ {σ : Type} [Source σ] (fuel : Nat) (source : σ),
    Brainfuck.decodeToText fuel code source = .error fault
  decodeWith : ∀ {σ ω : Type} [Source σ] [Writer ω] (fuel : Nat) (codec : Codec) (source : σ)
    (writer : ω), Brainfuck.decodeWith fuel code codec source writer = .error fault
  decode : ∀ {σ ω : Type} [Source σ] [Writer ω] (fuel : Nat) (source : σ) (writer : ω),
    Brainfuck.decode fuel code source writer = .error fault
  located : fault = Fault.ofCode code fault.bracket fault.position
  unlogged : Interpreter.compilationEvents code = []
  checks : Reports code 1
  decodes : ∀ codec, Answers (.decode codec) code fun spoken outcome =>
    outcome.exitCode = 1 ∧ outcome.stdout = #[] ∧
      outcome.stderr = spoken ++ Tool.errorText fault.message ∧ outcome.log = []

/-- No entry point refuses a code, and none will: it is run as this program, which
cannot fail by itself. -/
structure AdmittedAs (code : List Char) (program : Program) : Prop where
  validate : Brainfuck.validate code = .ok ()
  check : Brainfuck.check code = ⟨none⟩
  parse : Program.parse code = .ok program
  build : ∀ {σ τ : Type} (tape : Tape) (source : σ) (sink : τ),
    Interpreter.build code tape source sink = .ok ⟨program, Machine.start tape source sink⟩
  decodeToText : ∀ {σ : Type} [Source σ] (fuel : Nat) (source : σ),
    Brainfuck.decodeToText fuel code source =
      .ok (Interpreter.run fuel ⟨program, Machine.start .standard source Buffer.empty⟩)
  decodeWith : ∀ {σ ω : Type} [Source σ] [Writer ω] (fuel : Nat) (codec : Codec) (source : σ)
    (writer : ω), Brainfuck.decodeWith fuel code codec source writer =
      .ok (Interpreter.run fuel
        ⟨program, Machine.start .standard source (Stream.fresh writer codec)⟩)
  decode : ∀ {σ ω : Type} [Source σ] [Writer ω] (fuel : Nat) (source : σ) (writer : ω),
    Brainfuck.decode fuel code source writer =
      .ok (Interpreter.run fuel
        ⟨program, Machine.start .standard source (Stream.fresh writer .ascii)⟩)
  resolves : program.Resolves (Symbol.ofCode code)
  sound : ∀ {σ τ : Type} [Source σ] [Sink τ] (tape : Tape) (source : σ) (sink : τ),
    Interpreter.Sound ⟨program, Machine.start tape source sink⟩
  checks : Reports code 0
  decodes : ∀ codec, MayAnswer (.decode codec) code fun spoken outcome =>
    ∀ fault : Fault, outcome.stderr ≠ spoken ++ Tool.errorText fault.message

/-- No failure of a source or a sink is reported in the words of a fault. -/
theorem IoFailure.message_ne (failure : IoFailure) (fault : Fault) :
    failure.message ≠ fault.message := by
  intro equal
  have letters := congrArg String.toList equal
  simp [IoFailure.message, Fault.message] at letters

/-- The fault of a code is located in it. -/
theorem located_of_validate {code : List Char} {fault : Fault}
    (refused : validate code = .error fault) :
    fault = Fault.ofCode code fault.bracket fault.position := by
  unfold validate at refused
  split at refused
  · simp at refused
  · obtain rfl := Except.error.inj refused
    rfl

namespace CommandLine.Tool

/-- A process that checks a code prints the report and exits by it. -/
theorem reports (code : List Char) :
    Reports code (if (Brainfuck.check code).valid then 0 else 1) := by
  rintro fuel environment? arguments stdin ⟨logLevel?, action, words⟩ read rfl rfl
  refine ⟨_, respond_of_ofArguments read, rfl, rfl, ?_, rfl⟩
  simp [Outcome.filtered, check]

/-- A process that runs a refused code says why and does nothing else. -/
theorem answers_of_refused {code : List Char} {fault : Fault}
    (refused : ∀ fuel codec stdin,
      decodeWith fuel code codec (Bytes.mk stdin) Spool.empty = .error fault)
    (codec : Codec) :
    Answers (.decode codec) code fun spoken outcome =>
      outcome.exitCode = 1 ∧ outcome.stdout = #[] ∧
        outcome.stderr = spoken ++ errorText fault.message ∧ outcome.log = [] := by
  rintro fuel environment? arguments stdin ⟨logLevel?, action, words⟩ read rfl rfl
  rw [respond_of_ofArguments read]
  simp [perform, decode, refused fuel codec stdin, Outcome.filtered]

/-- The report of an error names it. -/
theorem errorText_inj {left right : String} (equal : errorText left = errorText right) :
    left = right := by
  have letters := congrArg String.toList equal
  exact String.toList_inj.mp (by simpa [errorText] using letters)

/-- A code that is not refused is run without a word, but for that of a failure. -/
theorem stderr_of_decode {fuel : Nat} {codec : Codec} {stdin : List UInt8} {code : List Char}
    {run : Run Bytes (Stream Spool)} {outcome : Outcome}
    (decodes : decodeWith fuel code codec (Bytes.mk stdin) Spool.empty = .ok run)
    (performs : decode fuel codec stdin code = some outcome) :
    outcome.stderr = "" ∨ ∃ failure : IoFailure, outcome.stderr = errorText failure.message := by
  simp only [decode, decodes] at performs
  split at performs
  · obtain rfl := Option.some.inj performs
    exact .inl rfl
  · obtain rfl := Option.some.inj performs
    exact .inr ⟨_, rfl⟩
  · simp at performs

/-- A process that runs a code that is not refused never reports a fault. -/
theorem mayAnswer_of_decodes {code : List Char}
    (decodes : ∀ fuel codec stdin, ∃ run,
      decodeWith fuel code codec (Bytes.mk stdin) Spool.empty = .ok run)
    (codec : Codec) :
    MayAnswer (.decode codec) code fun spoken outcome =>
      ∀ fault : Fault, outcome.stderr ≠ spoken ++ errorText fault.message := by
  rintro fuel environment? arguments stdin ⟨logLevel?, action, words⟩ read rfl rfl outcome
    responds fault
  rw [respond_of_ofArguments read] at responds
  obtain ⟨performed, performs, rfl⟩ := Option.map_eq_some_iff.mp responds
  obtain ⟨run, decodes⟩ := decodes fuel codec stdin
  intro reported
  have spoken : performed.stderr = errorText fault.message := by
    simpa [Outcome.filtered, ← String.toList_inj] using reported
  obtain silent | ⟨failure, failed⟩ := stderr_of_decode decodes performs
  · rw [silent] at spoken
    simp [errorText, ← String.toList_inj] at spoken
  · exact IoFailure.message_ne failure fault (errorText_inj (failed.symm.trans spoken))

end CommandLine.Tool

/-- The entry points reject a code that validation refuses. -/
theorem rejectedWith_of_validate {code : List Char} {fault : Fault}
    (refused : validate code = .error fault) : RejectedWith code fault := by
  have parse := Program.parse_eq_error_iff.mpr refused
  have build : ∀ {σ τ : Type} (tape : Tape) (source : σ) (sink : τ),
      Interpreter.build code tape source sink = .error fault := by
    intro σ τ tape source sink
    simp only [Interpreter.build, parse]
  have decodeInto : ∀ {σ τ : Type} [Source σ] [Sink τ] (fuel : Nat) (source : σ) (sink : τ),
      decodeInto fuel code source sink = .error fault := by
    intro σ τ _ _ fuel source sink
    simp only [Brainfuck.decodeInto, build]
  have check : check code = ⟨some fault.message⟩ := by
    simp only [Brainfuck.check, refused]
  exact
    { validate := refused
      check := check
      parse := parse
      build := build
      decodeToText := fun fuel source => decodeInto fuel source _
      decodeWith := fun fuel codec source writer => decodeInto fuel source _
      decode := fun fuel source writer => decodeInto fuel source _
      located := located_of_validate refused
      unlogged := by simp only [Interpreter.compilationEvents, parse]
      checks := by simpa [check, Report.valid] using Tool.reports code
      decodes := Tool.answers_of_refused fun fuel codec stdin => decodeInto fuel _ _ }

/-- The entry points admit a code that has a program. -/
theorem admittedAs_of_parse {code : List Char} {program : Program}
    (parsed : Program.parse code = .ok program) : AdmittedAs code program := by
  obtain ⟨accepted, -⟩ := Program.parse_eq_ok_iff.mp parsed
  have build : ∀ {σ τ : Type} (tape : Tape) (source : σ) (sink : τ),
      Interpreter.build code tape source sink = .ok ⟨program, Machine.start tape source sink⟩ :=
    fun tape source sink => Interpreter.build_of_parse parsed tape source sink
  have decodeInto : ∀ {σ τ : Type} [Source σ] [Sink τ] (fuel : Nat) (source : σ) (sink : τ),
      decodeInto fuel code source sink =
        .ok (Interpreter.run fuel ⟨program, Machine.start .standard source sink⟩) := by
    intro σ τ _ _ fuel source sink
    simp only [Brainfuck.decodeInto, build]
  have check : check code = ⟨none⟩ := by
    simp only [Brainfuck.check, accepted]
  exact
    { validate := accepted
      check := check
      parse := parsed
      build := build
      decodeToText := fun fuel source => decodeInto fuel source _
      decodeWith := fun fuel codec source writer => decodeInto fuel source _
      decode := fun fuel source writer => decodeInto fuel source _
      resolves := Program.resolves_of_parse parsed
      sound := fun tape source sink =>
        Interpreter.sound_of_closed (Program.closed_of_parse parsed) (Nat.zero_le _)
      checks := by simpa [check, Report.valid] using Tool.reports code
      decodes := Tool.mayAnswer_of_decodes fun fuel codec stdin => ⟨_, decodeInto fuel _ _⟩ }

/-- All entry points judge a code alike. A check calls it valid, validation accepts it,
it has a program, and an interpreter can be built for it, all of them or none; and
either all entry points refuse it with the same fault before any step, or none does
and no fault is met later. -/
theorem entryPoints_agree (code : List Char) :
    ((check code).valid = true ↔ validate code = .ok ()) ∧
      (validate code = .ok () ↔ ∃ program, Program.parse code = .ok program) ∧
      (∀ {σ τ : Type} (tape : Tape) (source : σ) (sink : τ),
        (∃ program, Program.parse code = .ok program) ↔
          ∃ interpreter, Interpreter.build code tape source sink = .ok interpreter) ∧
      ((∃ fault, RejectedWith code fault) ∨ ∃ program, AdmittedAs code program) := by
  refine ⟨check_valid_iff, ?_, ?_, ?_⟩
  · simp [Program.parse_eq_ok_iff]
  · intro σ τ tape source sink
    cases parsed : Program.parse code <;> simp [Interpreter.build, parsed]
  · cases parsed : Program.parse code with
    | error fault =>
        exact .inl ⟨fault, rejectedWith_of_validate (Program.parse_eq_error_iff.mp parsed)⟩
    | ok program => exact .inr ⟨program, admittedAs_of_parse parsed⟩

end Brainfuck
