import Brainfuck.Proofs.Code.Exchange
import Brainfuck.Semantics.Stepper

/-!
# Steppers in accord

Two steppers are in accord if related places lead to related places, the steps between
them fail alike, and what they log is alike as far as it is shown. This may be promised
only of places where some condition holds: then the two stay together for as long as all
attempts have been made from such places. `Accord.attempts` says so of every moment and
`Accord.run` of runs with the same fuel, which make no attempt after a failure.

What there is to show of two machines is `Machine.step_accords`: brackets ask for nothing
but the current cell, so it comes down to the commands. These need not be the same, as long
as they stand in the same places.
-/

namespace Brainfuck

variable {α β : Type}

/-- All that is logged is shown if nothing is hidden. -/
theorem Event.filter_all (logged : List Event) : logged.filter (fun _ => true) = logged :=
  List.filter_eq_self.mpr fun _ _ => rfl

/-- Two attempts that fail alike, log alike as far as it is shown, and leave related
places. -/
structure Attempt.Accords (shown : Event -> Bool) (Related : α -> β -> Prop) (left : Attempt α)
    (right : Attempt β) : Prop where
  failure? : left.failure? = right.failure?
  events : left.events.filter shown = right.events.filter shown
  related : Related left.after right.after

namespace Stepper

/-- Two runs that end alike, log alike as far as it is shown, and leave related places. -/
structure Outcome.Accords (shown : Event -> Bool) (Related : α -> β -> Prop) (left : Outcome α)
    (right : Outcome β) : Prop where
  ending : left.ending = right.ending
  events : left.events.filter shown = right.events.filter shown
  related : Related left.after right.after

/-- Related places are finished together and their steps count for as much. Where `holds`
is true on the left, the two steps accord. -/
structure Accord (left : Stepper α) (right : Stepper β) (holds : α -> Prop)
    (shown : Event -> Bool) (Related : α -> β -> Prop) : Prop where
  finished : ∀ {current image}, Related current image ->
    left.finished current = right.finished image
  weight : ∀ {current image}, Related current image -> left.weight current = right.weight image
  accords : ∀ {current image}, Related current image -> holds current ->
    (left.step current).Accords shown Related (right.step image)

/-- So many attempts are made, each of them from where `holds` is true. -/
def HoldsFor (stepper : Stepper α) (holds : α -> Prop) (count : Nat) (current : α) : Prop :=
  ∀ moment, moment < count -> holds (stepper.attempts moment current)

/-- A run with this fuel makes each of its attempts from where `holds` is true. It makes
one more attempt exactly where less fuel has been exhausted. -/
def HoldsInRun (stepper : Stepper α) (holds : α -> Prop) (fuel : Nat) (current : α) : Prop :=
  ∀ moment, moment < fuel -> (stepper.run moment current).ending = .exhausted ->
    holds (stepper.attempts moment current)

variable {stepper : Stepper α} {holds : α -> Prop}

/-- Attempts that are made from good places begin at one and go on from good places. -/
theorem holdsFor_succ_iff {count : Nat} {current : α} :
    stepper.HoldsFor holds (count + 1) current ↔
      holds current ∧ stepper.HoldsFor holds count (stepper.step current).after := by
  constructor
  · intro kept
    exact ⟨kept 0 (Nat.succ_pos count), fun moment less =>
      kept (moment + 1) (Nat.succ_lt_succ less)⟩
  · rintro ⟨here, later⟩ moment less
    cases moment with
    | zero => exact here
    | succ moment => exact later moment (Nat.lt_of_succ_lt_succ less)

/-- A run that is not finished makes its first attempt from a good place. -/
theorem HoldsInRun.here {fuel : Nat} {current : α}
    (kept : stepper.HoldsInRun holds (fuel + 1) current)
    (unfinished : stepper.finished current = false) : holds current := by
  have exhausted : (stepper.run 0 current).ending = .exhausted := by rw [run_zero unfinished]
  exact kept 0 (Nat.succ_pos fuel) exhausted

/-- Where a step succeeds, the rest of the run makes its attempts from good places. -/
theorem HoldsInRun.of_step {fuel : Nat} {current next : α} {events : List Event}
    (kept : stepper.HoldsInRun holds (fuel + 1) current)
    (unfinished : stepper.finished current = false)
    (stepped : stepper.step current = ⟨next, none, events⟩) :
    stepper.HoldsInRun holds fuel next := by
  intro moment less exhausted
  have there : stepper.attempts (moment + 1) current = stepper.attempts moment next := by
    rw [attempts, stepped]
  rw [← there]
  apply kept (moment + 1) (Nat.succ_lt_succ less)
  rw [run_of_step moment unfinished stepped, exhausted, Ending.afterSteps]

namespace Accord

variable {left : Stepper α} {right : Stepper β} {shown : Event -> Bool}
  {Related : α -> β -> Prop}

/-- After so many attempts from good places, related places are related. -/
theorem attempts (accord : Accord left right holds shown Related) (count : Nat) {current : α}
    {image : β} (related : Related current image) (kept : left.HoldsFor holds count current) :
    Related (left.attempts count current) (right.attempts count image) := by
  induction count generalizing current image with
  | zero => exact related
  | succ count inductionHypothesis =>
      obtain ⟨here, later⟩ := holdsFor_succ_iff.mp kept
      exact inductionHypothesis (accord.accords related here).related later

/-- Runs from related places accord, if the first makes its attempts from good places. -/
theorem run (accord : Accord left right holds shown Related) (fuel : Nat) {current : α}
    {image : β} (related : Related current image) (kept : left.HoldsInRun holds fuel current) :
    (left.run fuel current).Accords shown Related (right.run fuel image) := by
  have together := accord.finished related
  induction fuel generalizing current image with
  | zero =>
      cases finished : left.finished current with
      | true =>
          rw [run_of_finished 0 finished, run_of_finished 0 (together ▸ finished)]
          exact ⟨rfl, rfl, related⟩
      | false =>
          rw [run_zero finished, run_zero (together ▸ finished)]
          exact ⟨rfl, rfl, related⟩
  | succ fuel inductionHypothesis =>
      cases finished : left.finished current with
      | true =>
          rw [run_of_finished _ finished, run_of_finished _ (together ▸ finished)]
          exact ⟨rfl, rfl, related⟩
      | false =>
          obtain ⟨sameFailure, sameEvents, relatedNext⟩ :=
            accord.accords related (kept.here finished)
          rcases stepped : left.step current with ⟨next, failure?, events⟩
          rcases steppedRight : right.step image with ⟨last, _, logged⟩
          simp only [stepped, steppedRight] at sameFailure sameEvents relatedNext
          subst sameFailure
          cases failure? with
          | some failure =>
              rw [run_of_failure fuel finished stepped,
                run_of_failure fuel (together ▸ finished) steppedRight]
              exact ⟨rfl, sameEvents, relatedNext⟩
          | none =>
              obtain ⟨ending, sameLater, relatedLast⟩ :=
                inductionHypothesis relatedNext (kept.of_step finished stepped)
                  (accord.finished relatedNext)
              rw [run_of_step fuel finished stepped,
                run_of_step fuel (together ▸ finished) steppedRight]
              refine ⟨?_, ?_, relatedLast⟩
              · simp only [ending, accord.weight related]
              · simp only [List.filter_append, sameEvents, sameLater]

end Accord

end Stepper

namespace Machine

variable {σ ρ τ υ : Type}

/-- Machines at the same place whose states are related. -/
structure Aligned (States : State σ τ -> State ρ υ -> Prop) (left : Machine σ τ)
    (right : Machine ρ υ) : Prop where
  now : left.now = right.now
  state : States left.state right.state

variable [Source σ] [Source ρ] [Sink τ] [Sink υ] {shown : Event -> Bool}
  {States : State σ τ -> State ρ υ -> Prop}

/-- Commands that accord do so when they are executed at the same place. -/
theorem execute_accords {left : State σ τ} {right : State ρ υ} {command image : Command}
    (place : Nat)
    (accords : (left.perform command).Accords shown States (right.perform image)) :
    (execute ⟨left, place⟩ command).Accords shown (Aligned States)
      (execute ⟨right, place⟩ image) := by
  obtain ⟨sameFailure, sameEvents, related⟩ := accords
  rcases performedLeft : left.perform command with ⟨next, failure?, events⟩
  rcases performedRight : right.perform image with ⟨last, _, logged⟩
  simp only [performedLeft, performedRight] at sameFailure sameEvents related
  subst sameFailure
  cases failure? with
  | none =>
      simp only [execute, performedLeft, performedRight]
      exact ⟨rfl, sameEvents, rfl, related⟩
  | some failure =>
      simp only [execute, performedLeft, performedRight]
      exact ⟨rfl, sameEvents, rfl, related⟩

/-- A step of machines at the same place, the right one in a program with exchanged
commands, accords if the two show the same cell, the command that they come to accords, and
their states are related if they come to none. -/
theorem step_accords {program : Program} {exchange : Command -> Command}
    {left : Machine σ τ} {right : Machine ρ υ} (now : left.now = right.now)
    (sameCell : left.state.tape.cell = right.state.tape.cell)
    (rests : (∀ command, program.get? left.now ≠ some (.command command)) ->
      States left.state right.state)
    (performs : ∀ command, program.get? left.now = some (.command command) ->
      (left.state.perform command).Accords shown States
        (right.state.perform (exchange command))) :
    (left.step program).Accords shown (Aligned States)
      (right.step (program.exchanged exchange)) := by
  rcases left with ⟨left, place⟩
  rcases right with ⟨right, _⟩
  obtain rfl : place = _ := now
  have stands : (program.exchanged exchange).get? place =
      (program.get? place).map (Instruction.exchanged exchange) :=
    program.get?_exchanged place
  cases here : program.get? place with
  | none =>
      rw [here] at stands
      have related : States left right := rests (by simp [here])
      simp only [step, here, stands, Option.map_none]
      exact ⟨rfl, rfl, rfl, related⟩
  | some instruction =>
      rw [here] at stands
      cases instruction with
      | command command =>
          simp only [step, here, stands, Option.map_some, Instruction.exchanged]
          exact execute_accords place (performs command here)
      | loopBegin partner =>
          have related : States left right := rests (by simp [here])
          by_cases zero : left.tape.cell = 0
          · rw [step_of_zero here zero, step_of_zero stands (sameCell ▸ zero)]
            exact ⟨rfl, rfl, rfl, related⟩
          · rw [step_of_nonzero here zero, step_of_nonzero stands (sameCell ▸ zero)]
            exact ⟨rfl, rfl, rfl, related⟩
      | loopEnd partner =>
          have related : States left right := rests (by simp [here])
          rw [step_of_loopEnd here, step_of_loopEnd stands]
          exact ⟨rfl, rfl, rfl, related⟩

end Machine

end Brainfuck
