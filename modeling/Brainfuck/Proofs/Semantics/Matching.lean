import Brainfuck.Proofs.Semantics.Accord

/-!
# Machines between different sources and sinks

Two machines of one program match if they stand at the same place with the same
tape, and their sources and sinks are related. A source is only looked at by the
input command and a sink only by the output command. So a step of matching
machines comes to the same on both sides as soon as the one question that it asks
is answered alike: `Machine.step_alike`. Steppers whose steps are alike from
related places on stay together for ever, failures or not.
-/

namespace Brainfuck

/-- Two answers of sources or sinks that say the same and leave related rests. -/
def AnswersAlike {α β γ : Type} (Related : α -> β -> Prop) (left : Except IoFailure γ × α)
    (right : Except IoFailure γ × β) : Prop :=
  left.1 = right.1 ∧ Related left.2 right.2

/-- Two attempts that fail alike, log alike, and leave related places. -/
structure Attempt.Alike {α β : Type} (Related : α -> β -> Prop) (left : Attempt α)
    (right : Attempt β) : Prop where
  failure? : left.failure? = right.failure?
  events : left.events = right.events
  related : Related left.after right.after

/-- Attempts are alike if they accord in all that they log. -/
theorem Attempt.alike_iff_accords {α β : Type} {Related : α -> β -> Prop} {left : Attempt α}
    {right : Attempt β} : left.Alike Related right ↔ left.Accords (fun _ => true) Related right := by
  constructor
  · rintro ⟨sameFailure, sameEvents, related⟩
    exact ⟨sameFailure, congrArg _ sameEvents, related⟩
  · rintro ⟨sameFailure, sameEvents, related⟩
    rw [Event.filter_all, Event.filter_all] at sameEvents
    exact ⟨sameFailure, sameEvents, related⟩

variable {σ ρ τ υ : Type} [Source σ] [Source ρ] [Sink τ] [Sink υ]

/-- States with the same tape whose sources and sinks are related. -/
structure State.Matches {σ ρ τ υ : Type} (Sources : σ -> ρ -> Prop) (Sinks : τ -> υ -> Prop)
    (left : State σ τ) (right : State ρ υ) : Prop where
  tape : left.tape = right.tape
  source : Sources left.source right.source
  sink : Sinks left.sink right.sink

/-- What two states hold against a command: a command that asks the source or the
sink gets like answers, and a command that does not leaves them related. -/
structure State.Answers (Sources : σ -> ρ -> Prop) (Sinks : τ -> υ -> Prop) (left : State σ τ)
    (right : State ρ υ) (command? : Option Command) : Prop where
  tape : left.tape = right.tape
  source : command? ≠ some .input -> Sources left.source right.source
  reads : command? = some .input ->
    AnswersAlike Sources (Source.read left.source) (Source.read right.source)
  sink : command? ≠ some .output -> Sinks left.sink right.sink
  puts : command? = some .output ->
    AnswersAlike Sinks (Sink.put left.tape.cell.toChar left.sink)
      (Sink.put left.tape.cell.toChar right.sink)

/-- A command that finds like answers is performed alike. -/
theorem State.Answers.perform_alike {Sources : σ -> ρ -> Prop} {Sinks : τ -> υ -> Prop}
    {left : State σ τ} {right : State ρ υ} {command : Command}
    (answers : State.Answers Sources Sinks left right (some command)) :
    (left.perform command).Alike (State.Matches Sources Sinks) (right.perform command) := by
  rcases left with ⟨tape, leftSource, leftSink⟩
  rcases right with ⟨_, rightSource, rightSink⟩
  obtain ⟨rfl, source, reads, sink, puts⟩ := answers
  cases command with
  | moveRight => exact ⟨rfl, rfl, rfl, source (by simp), sink (by simp)⟩
  | moveLeft => exact ⟨rfl, rfl, rfl, source (by simp), sink (by simp)⟩
  | increment => exact ⟨rfl, rfl, rfl, source (by simp), sink (by simp)⟩
  | decrement => exact ⟨rfl, rfl, rfl, source (by simp), sink (by simp)⟩
  | output =>
      obtain ⟨sameAnswer, relatedSinks⟩ := puts rfl
      have relatedSources := source (by simp)
      rcases putLeft : Sink.put tape.cell.toChar leftSink with ⟨answer, leftWritten⟩
      rcases putRight : Sink.put tape.cell.toChar rightSink with ⟨_, rightWritten⟩
      simp only [putLeft, putRight] at sameAnswer relatedSinks
      subst sameAnswer
      cases answer with
      | error failure =>
          rw [State.perform_output_of_error putLeft, State.perform_output_of_error putRight]
          exact ⟨rfl, rfl, rfl, relatedSources, relatedSinks⟩
      | ok =>
          rw [State.perform_output putLeft, State.perform_output putRight]
          exact ⟨rfl, rfl, rfl, relatedSources, relatedSinks⟩
  | input =>
      obtain ⟨sameAnswer, relatedSources⟩ := reads rfl
      have relatedSinks := sink (by simp)
      rcases readLeft : Source.read leftSource with ⟨answer, leftRest⟩
      rcases readRight : Source.read rightSource with ⟨_, rightRest⟩
      simp only [readLeft, readRight] at sameAnswer relatedSources
      subst sameAnswer
      cases answer with
      | error failure =>
          rw [State.perform_input_of_error readLeft, State.perform_input_of_error readRight]
          exact ⟨rfl, rfl, rfl, relatedSources, relatedSinks⟩
      | ok value =>
          rw [State.perform_input readLeft, State.perform_input readRight]
          exact ⟨rfl, rfl, rfl, relatedSources, relatedSinks⟩

/-- States between which no command stands match. -/
theorem State.Answers.matches {Sources : σ -> ρ -> Prop} {Sinks : τ -> υ -> Prop}
    {left : State σ τ} {right : State ρ υ}
    (answers : State.Answers Sources Sinks left right none) :
    State.Matches Sources Sinks left right :=
  ⟨answers.tape, answers.source (by simp), answers.sink (by simp)⟩

namespace Machine

/-- The command that a machine comes to next, if it comes to one. -/
def command? {σ τ : Type} (program : Program) (machine : Machine σ τ) : Option Command :=
  match program.get? machine.now with
  | some (.command command) => some command
  | _ => none

/-- Machines at the same place whose states match. -/
structure Matches {σ ρ τ υ : Type} (Sources : σ -> ρ -> Prop) (Sinks : τ -> υ -> Prop)
    (left : Machine σ τ) (right : Machine ρ υ) : Prop where
  now : left.now = right.now
  state : State.Matches Sources Sinks left.state right.state

/-- A machine comes to a command exactly if it stands at its instruction. -/
theorem command?_eq_some_iff {σ τ : Type} {program : Program} {machine : Machine σ τ}
    {command : Command} :
    machine.command? program = some command ↔
      program.get? machine.now = some (.command command) := by
  unfold command?
  split
  · rename_i found here
    simp [here]
  · rename_i noCommand
    simpa using noCommand command

/-- A step in which both machines get like answers is the same step. -/
theorem step_alike {program : Program} {Sources : σ -> ρ -> Prop} {Sinks : τ -> υ -> Prop}
    {left : Machine σ τ} {right : Machine ρ υ} (now : left.now = right.now)
    (answers : State.Answers Sources Sinks left.state right.state (left.command? program)) :
    (left.step program).Alike (Matches Sources Sinks) (right.step program) := by
  have accords : (left.step program).Accords (fun _ => true)
      (Aligned (State.Matches Sources Sinks)) (right.step (program.exchanged id)) := by
    apply step_accords now (congrArg Tape.cell answers.tape)
    · intro noCommand
      have comes : left.command? program = none := by
        rw [Option.eq_none_iff_forall_ne_some]
        exact fun command comes => noCommand command (command?_eq_some_iff.mp comes)
      rw [comes] at answers
      exact answers.matches
    · intro command here
      have comes : left.command? program = some command := command?_eq_some_iff.mpr here
      rw [comes] at answers
      exact Attempt.alike_iff_accords.mp answers.perform_alike
  rw [program.exchanged_id] at accords
  obtain ⟨sameFailure, sameEvents, aligned⟩ := Attempt.alike_iff_accords.mpr accords
  exact ⟨sameFailure, sameEvents, aligned.now, aligned.state⟩

/-- A step fails only if it asks the source or the sink, and that fails. -/
theorem failure?_step_eq_none {program : Program} {machine : Machine σ τ}
    (reads : machine.command? program = some .input ->
      ∃ value, (Source.read machine.state.source).1 = .ok value)
    (puts : machine.command? program = some .output ->
      (Sink.put machine.state.tape.cell.toChar machine.state.sink).1 = .ok ()) :
    (machine.step program).failure? = none := by
  rcases machine with ⟨⟨tape, source, sink⟩, place⟩
  unfold command? at reads puts
  cases here : program.get? place with
  | none => simp [step, here]
  | some instruction =>
      simp only [here] at reads puts
      cases instruction with
      | command command =>
          cases command with
          | moveRight => simp [step, here, execute, State.perform]
          | moveLeft => simp [step, here, execute, State.perform]
          | increment => simp [step, here, execute, State.perform]
          | decrement => simp [step, here, execute, State.perform]
          | output =>
              rcases put : Sink.put tape.cell.toChar sink with ⟨_, written⟩
              obtain rfl : _ = Except.ok () := by simpa [put] using puts rfl
              rw [step_of_performed here (State.perform_output put)]
          | input =>
              obtain ⟨value, readValue⟩ := reads rfl
              rcases read : Source.read source with ⟨_, rest⟩
              obtain rfl : _ = Except.ok value := by simpa [read] using readValue
              rw [step_of_performed here (State.perform_input read)]
      | loopBegin partner =>
          by_cases zero : tape.cell = 0
          · rw [step_of_zero here zero]
          · rw [step_of_nonzero here zero]
      | loopEnd partner => rw [step_of_loopEnd here]

/-- Machines at the same place are finished together. -/
theorem finished_eq {σ ρ τ υ : Type} {program : Program} {left : Machine σ τ}
    {right : Machine ρ υ} (now : left.now = right.now) :
    left.finished program = right.finished program := by
  rw [finished, finished, now]

end Machine

end Brainfuck
