import Brainfuck.Proofs.Code.Sequence
import Brainfuck.Proofs.Semantics.LockStep

/-!
# Every moment of a machine

`Machine.StepsAs` tells the ways apart in which a machine takes a step; what a step
cannot do is read off from there. Two such facts hold of every machine that runs the
program of a code. It never leaves the program but for the place behind its last
instruction, and a step of it fails only if the source or the sink that it asks
answers with that failure. `Stepper.attempts_keep` carries them from the start to
every later moment.
-/

namespace Brainfuck

namespace Stepper

variable {α : Type} {stepper : Stepper α}

/-- What each attempt keeps true is true after any number of attempts. -/
theorem attempts_keep (holds : α -> Prop)
    (keeps : ∀ {current}, holds current -> holds (stepper.step current).after) (count : Nat)
    {current : α} (initially : holds current) : holds (stepper.attempts count current) := by
  induction count generalizing current with
  | zero => exact initially
  | succ count inductionHypothesis => exact inductionHypothesis (keeps initially)

/-- Some attempts and then some more are so many attempts together. -/
theorem attempts_add (earlier later : Nat) (current : α) :
    stepper.attempts (earlier + later) current =
      stepper.attempts later (stepper.attempts earlier current) := by
  induction earlier generalizing current with
  | zero => rw [Nat.zero_add, attempts]
  | succ earlier inductionHypothesis =>
      rw [Nat.add_right_comm]
      exact inductionHypothesis _

/-- A path to a place where stepping stays goes through every moment: each of them is
on the way or at that place. -/
theorem Path.attempts_cases {holds : α -> Prop} {current final : α} {count : Nat}
    {events : List Event} (path : stepper.Path holds current count events final)
    (stays : (stepper.step final).after = final) (moment : Nat) :
    holds (stepper.attempts moment current) ∨ stepper.attempts moment current = final := by
  induction path generalizing moment with
  | refl => exact .inr (attempts_keep (· = _) (fun there => there ▸ stays) moment rfl)
  | step here _ stepped _ inductionHypothesis =>
      cases moment with
      | zero => exact .inl here
      | succ moment =>
          rw [attempts, stepped]
          exact inductionHypothesis stays moment

/-- A stepping that ends with a failure comes to a moment at which a step fails so. -/
theorem Ends.exists_failing_moment {current final : α} {count : Nat} {events : List Event}
    {failure : IoFailure}
    (ends : stepper.Ends current count events (some failure) final) :
    ∃ moment, (stepper.step (stepper.attempts moment current)).failure? = some failure := by
  generalize failed : some failure = failure? at ends
  induction ends with
  | finished => simp at failed
  | failed _ stepped => exact ⟨0, by rw [attempts, stepped]⟩
  | step _ stepped _ inductionHypothesis =>
      obtain ⟨moment, fails⟩ := inductionHypothesis failed
      refine ⟨moment + 1, ?_⟩
      rwa [attempts, stepped]

end Stepper

variable {σ τ : Type} [Source σ] [Sink τ]

/-- The command asks the source or the sink of a state, and the answer is this
failure. -/
inductive State.Denies (state : State σ τ) (failure : IoFailure) : Command -> Prop where
  | source (answer : (Source.read state.source).1 = .error failure) : Denies state failure .input
  | sink (answer : (Sink.put state.tape.cell.toChar state.sink).1 = .error failure) :
      Denies state failure .output

/-- A command fails only with what the source or the sink answers. -/
theorem State.denies_of_perform {state next : State σ τ} {command : Command}
    {failure : IoFailure} {events : List Event}
    (performed : state.perform command = ⟨next, some failure, events⟩) :
    state.Denies failure command := by
  rcases state with ⟨tape, source, sink⟩
  cases command with
  | moveRight => simp [perform] at performed
  | moveLeft => simp [perform] at performed
  | increment => simp [perform] at performed
  | decrement => simp [perform] at performed
  | output =>
      rcases put : Sink.put tape.cell.toChar sink with ⟨found | _, written⟩
      · obtain ⟨-, rfl, -⟩ : _ ∧ found = failure ∧ _ := by simpa [perform, put] using performed
        exact .sink (by rw [put])
      · simp [perform, put] at performed
  | input =>
      rcases read : Source.read source with ⟨found | value, rest⟩
      · obtain ⟨-, rfl, -⟩ : _ ∧ found = failure ∧ _ := by simpa [perform, read] using performed
        exact .source (by rw [read])
      · simp [perform, read] at performed

/-- A command that fails leaves the tape. -/
theorem State.tape_of_failure {state next : State σ τ} {command : Command}
    {failure : IoFailure} {events : List Event}
    (performed : state.perform command = ⟨next, some failure, events⟩) :
    next.tape = state.tape := by
  rcases state with ⟨tape, source, sink⟩
  cases denies_of_perform performed with
  | source =>
      rcases read : Source.read source with ⟨found | value, rest⟩
      · obtain ⟨rfl, -⟩ : ⟨tape, rest, sink⟩ = next ∧ _ := by simpa [perform, read] using performed
        rfl
      · simp [perform, read] at performed
  | sink =>
      rcases put : Sink.put tape.cell.toChar sink with ⟨found | _, written⟩
      · obtain ⟨rfl, -⟩ : ⟨tape, source, written⟩ = next ∧ _ := by
          simpa [perform, put] using performed
        rfl
      · simp [perform, put] at performed

namespace Machine

/-- The ways in which a machine takes a step. -/
inductive StepsAs (program : Program) (machine : Machine σ τ) : Attempt (Machine σ τ) -> Prop where
  | idle (behind : program.get? machine.now = none) : StepsAs program machine ⟨machine, none, []⟩
  | performed {command : Command} {next : State σ τ} {events : List Event}
      (here : program.get? machine.now = some (.command command))
      (performed : machine.state.perform command = ⟨next, none, events⟩) :
      StepsAs program machine ⟨⟨next, machine.now + 1⟩, none, events⟩
  | failed {command : Command} {next : State σ τ} {failure : IoFailure} {events : List Event}
      (here : program.get? machine.now = some (.command command))
      (performed : machine.state.perform command = ⟨next, some failure, events⟩) :
      StepsAs program machine ⟨⟨next, machine.now⟩, some failure, events⟩
  | skipped {partner : Nat} (here : program.get? machine.now = some (.loopBegin partner))
      (zero : machine.state.tape.cell = 0) :
      StepsAs program machine
        ⟨⟨machine.state, partner + 1⟩, none, [.loopSkipped machine.now partner]⟩
  | entered {partner : Nat} (here : program.get? machine.now = some (.loopBegin partner))
      (nonzero : machine.state.tape.cell ≠ 0) :
      StepsAs program machine ⟨⟨machine.state, machine.now + 1⟩, none, []⟩
  | turned {partner : Nat} (here : program.get? machine.now = some (.loopEnd partner)) :
      StepsAs program machine ⟨⟨machine.state, partner⟩, none, []⟩

/-- A machine takes a step in one of the ways. -/
theorem stepsAs_step (program : Program) (machine : Machine σ τ) :
    machine.StepsAs program (machine.step program) := by
  rcases machine with ⟨state, place⟩
  cases here : program.get? place with
  | none =>
      have stays : step program ⟨state, place⟩ = ⟨⟨state, place⟩, none, []⟩ := by
        simp [step, here]
      rw [stays]
      exact .idle here
  | some instruction =>
      cases instruction with
      | command command =>
          rcases performed : state.perform command with ⟨next, _ | failure, events⟩
          · rw [step_of_performed here performed]
            exact .performed here performed
          · rw [step_of_failed here performed]
            exact .failed here performed
      | loopBegin partner =>
          by_cases zero : state.tape.cell = 0
          · rw [step_of_zero here zero]
            exact .skipped here zero
          · rw [step_of_nonzero here zero]
            exact .entered here zero
      | loopEnd partner =>
          rw [step_of_loopEnd here]
          exact .turned here

variable {program : Program} {machine : Machine σ τ}

/-- A step fails only at a command that is denied by the source or the sink. -/
theorem denies_of_failure {failure : IoFailure}
    (fails : (machine.step program).failure? = some failure) :
    ∃ command, program.get? machine.now = some (.command command) ∧
      machine.state.Denies failure command := by
  have steps := stepsAs_step program machine
  generalize machine.step program = attempt at steps fails
  cases steps with
  | idle => simp at fails
  | performed => simp at fails
  | failed here performed =>
      obtain rfl := Option.some.inj fails
      exact ⟨_, here, State.denies_of_perform performed⟩
  | skipped => simp at fails
  | entered => simp at fails
  | turned => simp at fails

/-- A machine within a closed program stays within it. -/
theorem now_step_le (closed : program.Closed) (within : machine.now ≤ program.size) :
    (machine.step program).after.now ≤ program.size := by
  have steps := stepsAs_step program machine
  generalize machine.step program = attempt at steps
  cases steps with
  | idle => exact within
  | performed here => exact Program.lt_size_of_get? here
  | failed => exact within
  | skipped here => exact closed.opening _ _ here
  | entered here => exact Program.lt_size_of_get? here
  | turned here => exact Nat.le_of_lt (closed.closing _ _ here)

end Machine

/-- At every moment the machine of an interpreter of a closed program is within it. -/
theorem Interpreter.now_after_le {interpreter : Interpreter σ τ}
    (closed : interpreter.program.Closed)
    (initially : interpreter.machine.now ≤ interpreter.program.size) (count : Nat) :
    (interpreter.after count).now ≤ interpreter.program.size := by
  let within (machine : Machine σ τ) : Prop := machine.now ≤ interpreter.program.size
  exact Stepper.attempts_keep within (Machine.now_step_le closed) count initially

/-- An interpreter whose program cannot fail by itself: at every moment its machine is
within the program, and whatever fails from there on, a step or a run, fails because
the source or the sink answers so to the command at its place. -/
structure Interpreter.Sound (interpreter : Interpreter σ τ) : Prop where
  within : ∀ count, (interpreter.after count).now ≤ interpreter.program.size
  steps : ∀ count failure,
    ((interpreter.after count).step interpreter.program).failure? = some failure ->
    ∃ command, interpreter.program.get? (interpreter.after count).now = some (.command command) ∧
      (interpreter.after count).state.Denies failure command
  runs : ∀ count fuel failure,
    ((interpreter.after count).run interpreter.program fuel).ending = .failed failure ->
    ∃ moment command,
      interpreter.program.get? (interpreter.after moment).now = some (.command command) ∧
      (interpreter.after moment).state.Denies failure command

/-- A run that fails does so at a moment when a step fails. -/
theorem Interpreter.exists_failing_moment {interpreter : Interpreter σ τ} {count fuel : Nat}
    {failure : IoFailure}
    (fails : ((interpreter.after count).run interpreter.program fuel).ending = .failed failure) :
    ∃ moment,
      ((interpreter.after moment).step interpreter.program).failure? = some failure := by
  rw [Machine.run_eq_stepper] at fails
  obtain ⟨taken, events, ends⟩ := Stepper.fails_iff.mp ⟨fuel, fails, rfl⟩
  obtain ⟨moment, failsThere⟩ := ends.exists_failing_moment
  refine ⟨count + moment, ?_⟩
  rw [Interpreter.after, Stepper.attempts_add]
  exact failsThere

/-- An interpreter that starts in a closed program is sound. -/
theorem Interpreter.sound_of_closed {interpreter : Interpreter σ τ}
    (closed : interpreter.program.Closed)
    (initially : interpreter.machine.now ≤ interpreter.program.size) : interpreter.Sound where
  within := now_after_le closed initially
  steps _ _ fails := Machine.denies_of_failure fails
  runs _ _ _ fails :=
    let ⟨moment, failsThere⟩ := exists_failing_moment fails
    ⟨moment, Machine.denies_of_failure failsThere⟩

end Brainfuck
