import Brainfuck.Machine.Calls
import Brainfuck.Proofs.Semantics.Matching

/-!
# Failures of a source surface

A step that reads takes the failure of its source for its own, whatever the kind of
that failure, and a run that comes to such a step ends with it: `Machine.Surfaces`. So
an interruption of a source is seen unless the source itself keeps it back, as a byte
reader does.
-/

namespace Brainfuck

namespace Machine

variable {σ τ : Type} [Source σ]

/-- The machine comes to a read that its source answers with a failure. -/
structure MeetsFailure (program : Program) (machine : Machine σ τ) (failure : IoFailure) :
    Prop where
  asks : machine.command? program = some .input
  answer : (Source.read machine.state.source).1 = .error failure

variable {program : Program} {machine next : Machine σ τ} {failure : IoFailure} {count : Nat}
  {events : List Event}

/-- A machine that meets a failure has something left to do. -/
theorem MeetsFailure.unfinished (meets : machine.MeetsFailure program failure) :
    machine.finished program = false :=
  unfinished_of_get? (command?_eq_some_iff.mp meets.asks)

variable [Sink τ]

/-- The step that reads takes the failure of the source for its own. -/
theorem MeetsFailure.exists_step (meets : machine.MeetsFailure program failure) :
    ∃ after, machine.step program = ⟨after, some failure, []⟩ := by
  rcases machine with ⟨⟨tape, source, sink⟩, place⟩
  obtain ⟨asks, answer⟩ := meets
  rcases read : Source.read source with ⟨_, rest⟩
  obtain rfl : _ = Except.error failure := by simpa [read] using answer
  exact ⟨_, step_of_failed (command?_eq_some_iff.mp asks) (State.perform_input_of_error read)⟩

/-- A finished machine stays where it is, however many steps are attempted. -/
theorem steps_of_finished (finished : machine.finished program = true) (count : Nat) :
    machine.steps program count = ⟨machine, none, []⟩ := by
  have idle : machine.step program = ⟨machine, none, []⟩ := by
    simp only [step, finished_eq_true_iff.mp finished]
  induction count with
  | zero => rfl
  | succ count inductionHypothesis =>
      rw [steps_of_step idle, inductionHypothesis]
      rfl

/-- A run ends with the failure that it meets after some steps. -/
theorem MeetsFailure.exists_run (meets : next.MeetsFailure program failure)
    (leads : machine.steps program count = ⟨next, none, events⟩) (fuel : Nat) :
    ∃ after, machine.run program (count + fuel + 1) = ⟨after, .failed failure, events⟩ := by
  induction count generalizing machine events with
  | zero =>
      obtain ⟨rfl, -, rfl⟩ := Attempt.mk.inj leads
      obtain ⟨after, fails⟩ := meets.exists_step
      refine ⟨after, ?_⟩
      rw [Nat.zero_add, run_of_failure meets.unfinished fails]
      rfl
  | succ count inductionHypothesis =>
      cases unfinished : machine.finished program with
      | true =>
          rw [steps_of_finished unfinished] at leads
          obtain ⟨rfl, -⟩ := Attempt.mk.inj leads
          rw [meets.unfinished] at unfinished
          contradiction
      | false =>
          rcases stepped : machine.step program with ⟨second, _ | denied, logged⟩
          · rw [steps_of_step stepped] at leads
            obtain ⟨leadsTo, succeeds, rfl⟩ := Attempt.mk.inj leads
            have leadsOn : second.steps program count =
                ⟨next, none, (second.steps program count).events⟩ := by
              rw [← leadsTo, ← succeeds]
            obtain ⟨after, fails⟩ := inductionHypothesis leadsOn
            refine ⟨after, ?_⟩
            rw [Nat.succ_add, Nat.succ_add, run_of_step unfinished stepped, fails]
            rfl
          · rw [steps_of_failure stepped] at leads
            simp at leads

/-- The failure of a source is the answer to a step that meets it, and to every run
that comes so far. -/
structure Surfaces (program : Program) (next : Machine σ τ) (failure : IoFailure) : Prop where
  step : (next.call program .step).1 = .stepped (some failure) []
  run : ∀ {machine : Machine σ τ} {count : Nat} {events : List Event},
    machine.steps program count = ⟨next, none, events⟩ -> ∀ fuel,
    (machine.call program (.run (count + fuel + 1))).1 = .ran (.failed failure) events

/-- Every failure that a machine meets surfaces. -/
theorem MeetsFailure.surfaces (meets : next.MeetsFailure program failure) :
    next.Surfaces program failure where
  step := by
    obtain ⟨after, fails⟩ := meets.exists_step
    rw [call, fails]
  run leads fuel := by
    obtain ⟨after, fails⟩ := meets.exists_run leads fuel
    rw [call, fails]
    simp [Run.log, Ending.events]

end Machine

end Brainfuck
