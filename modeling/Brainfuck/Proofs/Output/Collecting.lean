import Brainfuck.Proofs.Semantics.Moments

/-!
# What a sink has taken

A machine that never reads goes through the same places before every sink: where its
sink refuses a character it stays until the character is taken. So at each moment it
stands where it would stand before a buffer that has collected as many characters as
its sink has taken: `Collects.exists_attempts`, by induction on the attempts, each of
which either is taken before the buffer as well or changes nothing but the sink.
-/

namespace Brainfuck.Machine

variable {σ τ : Type} [Source σ] [Sink τ]

/-- The number of characters that a sink takes in a step: one, if the step is an
output that succeeds. -/
def outputs (program : Program) (machine : Machine σ τ) : Nat :=
  if machine.command? program = some .output ∧ (machine.step program).failure?.isNone then 1
  else 0

/-- The number of characters that a sink has taken after a number of attempted steps,
going on after failures. -/
def taken (program : Program) : Nat -> Machine σ τ -> Nat
  | 0, _ => 0
  | count + 1, machine => machine.outputs program + taken program count (machine.step program).after

/-- A machine stands where another one does that has collected so many characters. -/
structure Collects (collected : Nat) (machine : Machine σ τ) (image : Machine σ Buffer) :
    Prop where
  now : machine.now = image.now
  tape : machine.state.tape = image.state.tape
  length : image.state.sink.text.length = collected

variable {program : Program} {collected : Nat} {machine : Machine σ τ} {image : Machine σ Buffer}

/-- A step that does not read is taken before a buffer too, if the sinks agree about it;
`next` characters have been collected then. -/
theorem Collects.step_of_agreement {next : Nat} (collects : machine.Collects collected image)
    (noInput : machine.command? program ≠ some .input)
    (silent : machine.command? program ≠ some .output -> image.state.sink.text.length = next)
    (prints : machine.command? program = some .output ->
      AnswersAlike (fun _ buffer => buffer.text.length = next)
        (Sink.put machine.state.tape.cell.toChar machine.state.sink)
        (Sink.put machine.state.tape.cell.toChar image.state.sink)) :
    (machine.step program).after.Collects next (image.step program).after := by
  have answers : State.Answers (fun _ _ => True) (fun _ buffer => buffer.text.length = next)
      machine.state image.state (machine.command? program) :=
    ⟨collects.tape, fun _ => trivial, fun reads => absurd reads noInput, silent, prints⟩
  obtain ⟨now, tape, -, length⟩ := (step_alike collects.now answers).related
  exact ⟨now, tape, length⟩

/-- A step that neither reads nor prints leaves as many characters collected. -/
theorem Collects.step_of_silent (collects : machine.Collects collected image)
    (noInput : machine.command? program ≠ some .input)
    (noOutput : machine.command? program ≠ some .output) :
    (machine.step program).after.Collects (collected + machine.outputs program)
      (image.step program).after := by
  have nothing : machine.outputs program = 0 := by simp [outputs, noOutput]
  rw [nothing]
  exact collects.step_of_agreement noInput (fun _ => collects.length)
    fun prints => absurd prints noOutput

/-- A character that the sink takes is collected by a buffer too. -/
theorem Collects.step_of_taken (collects : machine.Collects collected image)
    (prints : machine.command? program = some .output)
    (takes : (Sink.put machine.state.tape.cell.toChar machine.state.sink).1 = .ok ()) :
    (machine.step program).after.Collects (collected + machine.outputs program)
      (image.step program).after := by
  have noInput : machine.command? program ≠ some .input := by simp [prints]
  have succeeds : (machine.step program).failure? = none :=
    failure?_step_eq_none (fun reads => absurd reads noInput) fun _ => takes
  have one : machine.outputs program = 1 := by simp [outputs, prints, succeeds]
  rw [one]
  refine collects.step_of_agreement noInput (absurd prints) fun _ => ⟨takes, ?_⟩
  simp [Sink.put, collects.length]

/-- A character that the sink refuses leaves the machine where it was. -/
theorem Collects.step_of_refused (collects : machine.Collects collected image)
    (prints : machine.command? program = some .output) {failure : IoFailure}
    (refuses : (Sink.put machine.state.tape.cell.toChar machine.state.sink).1 = .error failure) :
    (machine.step program).after.Collects (collected + machine.outputs program) image := by
  rcases machine with ⟨⟨tape, source, sink⟩, place⟩
  rcases put : Sink.put tape.cell.toChar sink with ⟨_, written⟩
  obtain rfl : _ = Except.error failure := by simpa [put] using refuses
  have stepped : step program ⟨⟨tape, source, sink⟩, place⟩ =
      ⟨⟨⟨tape, source, written⟩, place⟩, some failure, []⟩ :=
    step_of_failed (command?_eq_some_iff.mp prints) (State.perform_output_of_error put)
  have nothing : outputs program ⟨⟨tape, source, sink⟩, place⟩ = 0 := by
    simp [outputs, stepped]
  rw [nothing, stepped]
  exact ⟨collects.now, collects.tape, collects.length⟩

/-- After a step that does not read, the machine stands at the next moment before a
buffer, or still at the same one. -/
theorem Collects.exists_step (collects : machine.Collects collected image)
    (noInput : machine.command? program ≠ some .input) :
    ∃ moment, (machine.step program).after.Collects (collected + machine.outputs program)
      ((stepper program).attempts moment image) := by
  by_cases prints : machine.command? program = some .output
  · rcases answer : (Sink.put machine.state.tape.cell.toChar machine.state.sink).1 with failure | _
    · exact ⟨0, collects.step_of_refused prints answer⟩
    · exact ⟨1, collects.step_of_taken prints answer⟩
  · exact ⟨1, collects.step_of_silent noInput prints⟩

/-- Whatever its sink does, a machine whose program never reads stands at a moment at
which a buffer has collected what the sink has taken. -/
theorem Collects.exists_attempts
    (noInput : ∀ place, program.get? place ≠ some (.command .input))
    (collects : machine.Collects collected image) (count : Nat) :
    ∃ moment, ((stepper program).attempts count machine).Collects
      (collected + machine.taken program count) ((stepper program).attempts moment image) := by
  induction count generalizing machine collected image with
  | zero => exact ⟨0, collects⟩
  | succ count inductionHypothesis =>
      have silent : machine.command? program ≠ some .input := fun reads =>
        noInput machine.now (command?_eq_some_iff.mp reads)
      obtain ⟨first, collectsNext⟩ := collects.exists_step silent
      obtain ⟨later, collectsLast⟩ := inductionHypothesis collectsNext
      rw [← Stepper.attempts_add, Nat.add_assoc] at collectsLast
      exact ⟨first + later, collectsLast⟩

end Brainfuck.Machine
