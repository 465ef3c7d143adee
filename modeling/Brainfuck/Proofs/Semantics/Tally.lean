import Brainfuck.Machine.Calls
import Brainfuck.Proofs.Semantics.Moments

/-!
# What attempts come to

A `Tally` says how many of some attempts succeeded and how the others failed. Single
attempts are tallied by `Stepper.tally`, and the steps that a run takes by
`Stepper.runTally`. What a run comes to is told attempt by attempt by `Machine.Stepwise`: a
run that fails loses its count, but nothing else. Hence a run, and calls in a row, come to
what some number of single attempts does, and leave the same machine
(`Machine.exists_tally_callAll`).
-/

namespace Brainfuck

/-- How many attempts succeeded, and the failures of the others, in order. -/
structure Tally where
  steps : Nat
  failures : List IoFailure
  deriving DecidableEq, Repr

namespace Tally

/-- No attempt has been made. -/
def nothing : Tally where
  steps := 0
  failures := []

/-- One attempt has been made and has failed or not. -/
def single : Option IoFailure -> Tally
  | none => ⟨1, []⟩
  | some failure => ⟨0, [failure]⟩

/-- Some attempts and then some more. -/
def andThen (earlier later : Tally) : Tally where
  steps := earlier.steps + later.steps
  failures := earlier.failures ++ later.failures

@[simp] theorem nothing_andThen (tally : Tally) : nothing.andThen tally = tally := by
  simp [nothing, andThen]

@[simp] theorem andThen_nothing (tally : Tally) : tally.andThen nothing = tally := by
  simp [nothing, andThen]

theorem andThen_assoc (first second third : Tally) :
    (first.andThen second).andThen third = first.andThen (second.andThen third) := by
  simp [andThen, Nat.add_assoc]

/-- One attempt has at most one failure. -/
theorem failures_single (failure? : Option IoFailure) :
    (single failure?).failures = failure?.toList := by
  cases failure? <;> rfl

/-- A success in front is counted. -/
theorem single_none_andThen (steps : Nat) (failures : List IoFailure) :
    (single none).andThen ⟨steps, failures⟩ = ⟨steps + 1, failures⟩ := by
  simp [single, andThen, Nat.add_comm]

end Tally

namespace Stepper

variable {α : Type} (stepper : Stepper α)

/-- What one attempt comes to. Where it is finished there is nothing to attempt. -/
def tallyOnce (current : α) : Tally :=
  if stepper.finished current then .nothing else .single (stepper.step current).failure?

/-- What a number of attempts comes to, made one at a time and going on after failures. -/
def tally : Nat -> α -> Tally
  | 0, _ => .nothing
  | count + 1, current =>
      (stepper.tallyOnce current).andThen (tally count (stepper.step current).after)

/-- What a run comes to, which counts its steps until it is finished, until one fails or
until the fuel is used up. -/
def runTally : Nat -> α -> Tally
  | 0, _ => .nothing
  | fuel + 1, current =>
      if stepper.finished current then .nothing
      else
        match stepper.step current with
        | ⟨next, none, _⟩ => (Tally.single none).andThen (runTally fuel next)
        | ⟨_, some failure, _⟩ => .single (some failure)

/-- The next steps all succeed, and none of them is taken where it is finished. -/
def SucceedsFor (count : Nat) (current : α) : Prop :=
  ∀ moment, moment < count -> stepper.finished (stepper.attempts moment current) = false ∧
    (stepper.step (stepper.attempts moment current)).failure? = none

variable {stepper} {current : α}

/-- One attempt, where it is not finished. -/
theorem tallyOnce_of_unfinished (unfinished : stepper.finished current = false) :
    stepper.tallyOnce current = .single (stepper.step current).failure? := by
  simp [tallyOnce, unfinished]

/-- A run that begins with a successful step counts it. -/
theorem runTally_of_step (fuel : Nat) {next : α} {events : List Event}
    (unfinished : stepper.finished current = false)
    (stepped : stepper.step current = ⟨next, none, events⟩) :
    stepper.runTally (fuel + 1) current =
      (Tally.single none).andThen (stepper.runTally fuel next) := by
  rw [runTally]
  simp [unfinished, stepped]

/-- A run comes to nothing where it is finished. -/
theorem runTally_of_finished (fuel : Nat) (finished : stepper.finished current = true) :
    stepper.runTally fuel current = .nothing := by
  cases fuel <;> simp [runTally, finished]

/-- A run that begins with a failure comes to that failure. -/
theorem runTally_of_failure (fuel : Nat) {next : α} {failure : IoFailure} {events : List Event}
    (unfinished : stepper.finished current = false)
    (stepped : stepper.step current = ⟨next, some failure, events⟩) :
    stepper.runTally (fuel + 1) current = .single (some failure) := by
  rw [runTally]
  simp [unfinished, stepped]

/-- Some attempts and then some more come to what they come to together. -/
theorem tally_add (earlier later : Nat) (current : α) :
    stepper.tally (earlier + later) current =
      (stepper.tally earlier current).andThen
        (stepper.tally later (stepper.attempts earlier current)) := by
  induction earlier generalizing current with
  | zero => rw [Nat.zero_add, tally, Tally.nothing_andThen, attempts]
  | succ earlier inductionHypothesis =>
      rw [Nat.add_right_comm, tally, inductionHypothesis, tally, Tally.andThen_assoc, attempts]

/-- A single attempt. -/
@[simp] theorem tally_one (current : α) : stepper.tally 1 current = stepper.tallyOnce current :=
  Tally.andThen_nothing _

/-- Attempts that all succeed are counted, and there is no failure among them. -/
theorem tally_of_succeedsFor {count : Nat} (succeeds : stepper.SucceedsFor count current) :
    stepper.tally count current = ⟨count, []⟩ := by
  induction count with
  | zero => rfl
  | succ count inductionHypothesis =>
      have before : stepper.SucceedsFor count current :=
        fun moment less => succeeds moment (Nat.lt_succ_of_lt less)
      obtain ⟨unfinished, succeedsLast⟩ := succeeds count (Nat.lt_succ_self count)
      rw [tally_add, inductionHypothesis before, tally_one, tallyOnce_of_unfinished unfinished,
        succeedsLast]
      rfl

/-- A successful step and then some more. -/
theorem SucceedsFor.after_step {count : Nat} (unfinished : stepper.finished current = false)
    (succeeded : (stepper.step current).failure? = none)
    (onward : stepper.SucceedsFor count (stepper.step current).after) :
    stepper.SucceedsFor (count + 1) current := by
  intro moment less
  cases moment with
  | zero => exact ⟨unfinished, succeeded⟩
  | succ moment => exact onward moment (Nat.lt_of_succ_lt_succ less)

/-- Where stepping is finished, nothing more is attempted. -/
theorem tally_of_finished (stays : (stepper.step current).after = current)
    (finished : stepper.finished current = true) (count : Nat) :
    stepper.tally count current = .nothing ∧ stepper.attempts count current = current := by
  induction count with
  | zero => exact ⟨rfl, rfl⟩
  | succ count inductionHypothesis =>
      rw [tally, attempts, stays, tallyOnce, if_pos finished, Tally.nothing_andThen]
      exact inductionHypothesis

end Stepper

variable {σ τ : Type} [Source σ] [Sink τ]

namespace Machine

/-- What a call comes to. -/
def callTally (program : Program) (machine : Machine σ τ) : Call -> Tally
  | .step => (stepper program).tallyOnce machine
  | .run fuel => (stepper program).runTally fuel machine

/-- What calls in a row come to. -/
def callsTally (program : Program) : List Call -> Machine σ τ -> Tally
  | [], _ => .nothing
  | call :: rest, machine =>
      (machine.callTally program call).andThen
        (callsTally program rest (machine.call program call).2)

/-- The next step of a machine fails so at an output or an input, and leaves the tape and the
place of the machine. -/
structure FailsInPlace (program : Program) (failure : IoFailure) (machine : Machine σ τ) :
    Prop where
  fails : (machine.step program).failure? = some failure
  atCommand : program.get? machine.now = some (.command .output) ∨
    program.get? machine.now = some (.command .input)
  tape : (machine.step program).after.state.tape = machine.state.tape
  now : (machine.step program).after.now = machine.now

/-- A run that ends so and there has come to this. If it is finished after some steps, these
are successful steps to the end of the program. If it has failed, there are successful
steps to a place at which one step fails. If its fuel is used up, there are only successful
steps. -/
inductive Stepwise (program : Program) (machine : Machine σ τ) :
    Ending -> Machine σ τ -> Tally -> Prop where
  | finished {steps : Nat} (succeeds : (stepper program).SucceedsFor steps machine)
      (finished : ((stepper program).attempts steps machine).finished program = true) :
      Stepwise program machine (.finished steps) ((stepper program).attempts steps machine)
        ⟨steps, []⟩
  | failed {steps : Nat} {failure : IoFailure}
      (succeeds : (stepper program).SucceedsFor steps machine)
      (fails : ((stepper program).attempts steps machine).FailsInPlace program failure) :
      Stepwise program machine (.failed failure) ((stepper program).attempts (steps + 1) machine)
        ⟨steps, [failure]⟩
  | exhausted {steps : Nat} (succeeds : (stepper program).SucceedsFor steps machine) :
      Stepwise program machine .exhausted ((stepper program).attempts steps machine)
        ⟨steps, []⟩

variable {program : Program} {machine : Machine σ τ}

/-- Every step that fails does so in its place. -/
theorem failsInPlace_of_failure {failure : IoFailure}
    (fails : (machine.step program).failure? = some failure) :
    machine.FailsInPlace program failure := by
  have steps := stepsAs_step program machine
  generalize stepped : machine.step program = attempt at steps
  rw [stepped] at fails
  cases steps with
  | idle => cases fails
  | performed => cases fails
  | skipped => cases fails
  | entered => cases fails
  | turned => cases fails
  | failed here performed =>
      obtain rfl := Option.some.inj fails
      constructor
      · rw [stepped]
      · cases State.denies_of_perform performed with
        | sink => exact .inl here
        | source => exact .inr here
      · rw [stepped]
        exact State.tape_of_failure performed
      · rw [stepped]

/-- A step fails only where the machine is not finished. -/
theorem FailsInPlace.unfinished {failure : IoFailure}
    (fails : machine.FailsInPlace program failure) : machine.finished program = false := by
  rcases fails.atCommand with here | here
  · exact unfinished_of_get? here
  · exact unfinished_of_get? here

/-- A run that begins with a successful step goes on as the run behind it. -/
theorem Stepwise.after_step {next final : Machine σ τ} {events : List Event} {ending : Ending}
    {tally : Tally} (unfinished : machine.finished program = false)
    (stepped : machine.step program = ⟨next, none, events⟩)
    (onward : next.Stepwise program ending final tally) :
    machine.Stepwise program (ending.afterSteps 1) final ((Tally.single none).andThen tally) := by
  have after : ((stepper program).step machine).after = next :=
    congrArg Attempt.after stepped
  have succeeded : ((stepper program).step machine).failure? = none :=
    congrArg Attempt.failure? stepped
  subst after
  cases onward with
  | @finished steps succeeds finished =>
      have more := succeeds.after_step unfinished succeeded
      rw [Ending.afterSteps, Nat.add_comm, Tally.single_none_andThen]
      exact .finished more finished
  | @failed steps failure succeeds fails =>
      have more := succeeds.after_step unfinished succeeded
      rw [Ending.afterSteps, Tally.single_none_andThen]
      exact .failed more fails
  | @exhausted steps succeeds =>
      have more := succeeds.after_step unfinished succeeded
      rw [Ending.afterSteps, Tally.single_none_andThen]
      exact .exhausted more

/-- Every run is stepwise. -/
theorem stepwise_run (program : Program) (fuel : Nat) (machine : Machine σ τ) :
    machine.Stepwise program (run program fuel machine).ending (run program fuel machine).machine
      ((stepper program).runTally fuel machine) := by
  have nothing {machine : Machine σ τ} : (stepper program).SucceedsFor 0 machine :=
    fun moment less => absurd less (Nat.not_lt_zero moment)
  induction fuel generalizing machine with
  | zero =>
      cases finished : (stepper program).finished machine with
      | true =>
          rw [run_of_finished finished]
          exact .finished nothing finished
      | false =>
          rw [run_zero finished]
          exact .exhausted nothing
  | succ fuel inductionHypothesis =>
      cases finished : (stepper program).finished machine with
      | true =>
          rw [run_of_finished finished, Stepper.runTally_of_finished _ finished]
          exact .finished nothing finished
      | false =>
          rcases stepped : (stepper program).step machine with ⟨next, _ | failure, events⟩
          · rw [run_of_step finished stepped, Stepper.runTally_of_step fuel finished stepped]
            exact (inductionHypothesis next).after_step finished stepped
          · have after : (stepper program).attempts 1 machine = next :=
              congrArg Attempt.after stepped
            rw [run_of_failure finished stepped, Stepper.runTally_of_failure fuel finished stepped,
              ← after]
            exact .failed nothing (failsInPlace_of_failure (congrArg Attempt.failure? stepped))

/-- What a run comes to is what some number of single attempts does. -/
theorem Stepwise.exists_attempts {ending : Ending} {final : Machine σ τ} {tally : Tally}
    (stepwise : machine.Stepwise program ending final tally) :
    ∃ count, final = (stepper program).attempts count machine ∧
      tally = (stepper program).tally count machine := by
  cases stepwise with
  | finished succeeds => exact ⟨_, rfl, (Stepper.tally_of_succeedsFor succeeds).symm⟩
  | exhausted succeeds => exact ⟨_, rfl, (Stepper.tally_of_succeedsFor succeeds).symm⟩
  | @failed steps failure succeeds fails =>
      refine ⟨steps + 1, rfl, ?_⟩
      have unfinished : (stepper program).finished ((stepper program).attempts steps machine) =
          false := fails.unfinished
      have failed : ((stepper program).step ((stepper program).attempts steps machine)).failure? =
          some failure := fails.fails
      rw [Stepper.tally_add, Stepper.tally_of_succeedsFor succeeds, Stepper.tally_one,
        Stepper.tallyOnce_of_unfinished unfinished, failed]
      rfl

/-- What a call comes to is what some number of single attempts does. -/
theorem exists_tally_call (program : Program) (call : Call) (machine : Machine σ τ) :
    ∃ count, (machine.call program call).2 = (stepper program).attempts count machine ∧
      machine.callTally program call = (stepper program).tally count machine := by
  cases call with
  | step => exact ⟨1, rfl, (Stepper.tally_one machine).symm⟩
  | run fuel => exact (stepwise_run program fuel machine).exists_attempts

/-- What calls in a row come to is what some number of single attempts does. -/
theorem exists_tally_callAll (program : Program) (calls : List Call) (machine : Machine σ τ) :
    ∃ count, (callAll program calls machine).2 = (stepper program).attempts count machine ∧
      callsTally program calls machine = (stepper program).tally count machine := by
  induction calls generalizing machine with
  | nil => exact ⟨0, rfl, rfl⟩
  | cons call rest inductionHypothesis =>
      obtain ⟨earlier, leads, comesTo⟩ := exists_tally_call program call machine
      obtain ⟨later, leadsOn, comesOnTo⟩ := inductionHypothesis (machine.call program call).2
      refine ⟨earlier + later, ?_, ?_⟩
      · rw [callAll_cons, leadsOn, leads, Stepper.attempts_add]
      · rw [callsTally, comesOnTo, comesTo, leads, Stepper.tally_add]

end Machine

end Brainfuck
