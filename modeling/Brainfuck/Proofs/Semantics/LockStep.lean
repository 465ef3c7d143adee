import Brainfuck.Proofs.Semantics.Matching

/-!
# Lock step

Two steppers whose steps are alike from related places on stay related for ever,
failed steps included, and their runs with the same fuel end alike. Said of two
interpreters, `Interpreter.InLockStep`, this covers every moment of their lives and
everything that a step or a run from such a moment returns and logs.
-/

namespace Brainfuck

namespace Stepper

variable {α β : Type}

/-- Related places are finished together, their steps count for as much and are
alike, and lead to related places. -/
structure LockStep (left : Stepper α) (right : Stepper β) (Related : α -> β -> Prop) : Prop where
  finished : ∀ {current image}, Related current image ->
    left.finished current = right.finished image
  weight : ∀ {current image}, Related current image -> left.weight current = right.weight image
  alike : ∀ {current image}, Related current image ->
    (left.step current).Alike Related (right.step image)

/-- Two runs that end alike, log alike, and leave related places. -/
structure Outcome.Alike (Related : α -> β -> Prop) (left : Outcome α) (right : Outcome β) :
    Prop where
  ending : left.ending = right.ending
  events : left.events = right.events
  related : Related left.after right.after

namespace LockStep

variable {left : Stepper α} {right : Stepper β} {Related : α -> β -> Prop}

/-- Steppers in lock step are in accord wherever they stand, in all that they log. -/
theorem accord (lockStep : LockStep left right Related) :
    Accord left right anywhere (fun _ => true) Related where
  finished := lockStep.finished
  weight := lockStep.weight
  accords related _ := Attempt.alike_iff_accords.mp (lockStep.alike related)

/-- Lock step looked at from the other side. -/
theorem symm (lockStep : LockStep left right Related) :
    LockStep right left fun image current => Related current image where
  finished related := (lockStep.finished related).symm
  weight related := (lockStep.weight related).symm
  alike related := by
    obtain ⟨sameFailure, sameEvents, relatedNext⟩ := lockStep.alike related
    exact ⟨sameFailure.symm, sameEvents.symm, relatedNext⟩

/-- After any number of attempts related places are related. -/
theorem attempts (lockStep : LockStep left right Related) (count : Nat) {current : α}
    {image : β} (related : Related current image) :
    Related (left.attempts count current) (right.attempts count image) :=
  lockStep.accord.attempts count related fun _ _ => trivial

/-- Runs from related places with the same fuel are alike. -/
theorem run (lockStep : LockStep left right Related) (fuel : Nat) {current : α} {image : β}
    (related : Related current image) :
    (left.run fuel current).Alike Related (right.run fuel image) := by
  obtain ⟨ending, events, relatedLast⟩ :=
    lockStep.accord.run fuel related fun _ _ _ => trivial
  rw [Event.filter_all, Event.filter_all] at events
  exact ⟨ending, events, relatedLast⟩

end LockStep

end Stepper

namespace Interpreter

variable {σ ρ τ υ : Type} [Source σ] [Source ρ] [Sink τ] [Sink υ]

/-- The machine of an interpreter after a number of attempted steps, going on after
failures. -/
def after (interpreter : Interpreter σ τ) (count : Nat) : Machine σ τ :=
  (Machine.stepper interpreter.program).attempts count interpreter.machine

/-- Two interpreters whose machines are related at every moment, whose steps from
there fail alike and log alike, and whose runs from there end alike, log alike and
leave related machines. -/
structure InLockStep (left : Interpreter σ τ) (right : Interpreter ρ υ)
    (Related : Machine σ τ -> Machine ρ υ -> Prop) : Prop where
  moments : ∀ count, Related (left.after count) (right.after count)
  steps : ∀ count,
    ((left.after count).step left.program).Alike Related ((right.after count).step right.program)
  endings : ∀ count fuel, ((left.after count).run left.program fuel).ending =
    ((right.after count).run right.program fuel).ending
  logs : ∀ count fuel, ((left.after count).run left.program fuel).log =
    ((right.after count).run right.program fuel).log
  finals : ∀ count fuel, Related ((left.after count).run left.program fuel).machine
    ((right.after count).run right.program fuel).machine

/-- Interpreters whose steppers go in lock step do so themselves. -/
theorem inLockStep_of_lockStep {left : Interpreter σ τ} {right : Interpreter ρ υ}
    {Related : Machine σ τ -> Machine ρ υ -> Prop}
    (lockStep : Stepper.LockStep (Machine.stepper left.program) (Machine.stepper right.program)
      Related)
    (related : Related left.machine right.machine) : left.InLockStep right Related := by
  have moments : ∀ count, Related (left.after count) (right.after count) := fun count =>
    lockStep.attempts count related
  have runs := fun count fuel => lockStep.run fuel (moments count)
  refine ⟨moments, fun count => lockStep.alike (moments count), ?_, ?_, ?_⟩
  · intro count fuel
    rw [Machine.run_eq_stepper, Machine.run_eq_stepper]
    exact (runs count fuel).ending
  · intro count fuel
    rw [Machine.run_eq_stepper, Machine.run_eq_stepper]
    simp only [Run.log, (runs count fuel).ending, (runs count fuel).events]
  · intro count fuel
    rw [Machine.run_eq_stepper, Machine.run_eq_stepper]
    exact (runs count fuel).related

end Interpreter

/-- Machines of one program that match at the same place go in lock step, if their
sources and sinks always answer alike. -/
theorem Machine.lockStep_of_answers {σ ρ τ υ : Type} [Source σ] [Source ρ] [Sink τ] [Sink υ]
    {Sources : σ -> ρ -> Prop} {Sinks : τ -> υ -> Prop} (program : Program)
    (reads : ∀ {left right}, Sources left right ->
      AnswersAlike Sources (Source.read left) (Source.read right))
    (puts : ∀ {left right} character, Sinks left right ->
      AnswersAlike Sinks (Sink.put character left) (Sink.put character right)) :
    Stepper.LockStep (stepper program) (stepper program) (Matches Sources Sinks) where
  finished related := finished_eq related.now
  weight _ := rfl
  alike related := by
    obtain ⟨now, tape, source, sink⟩ := related
    apply step_alike now
    exact ⟨tape, fun _ => source, fun _ => reads source, fun _ => sink, fun _ => puts _ sink⟩

/-- Machines between the same source and sinks that always answer alike go in lock step. -/
theorem Machine.lockStep_of_puts {σ τ υ : Type} [Source σ] [Sink τ] [Sink υ]
    {Sinks : τ -> υ -> Prop} (program : Program)
    (puts : ∀ {left right} character, Sinks left right ->
      AnswersAlike Sinks (Sink.put character left) (Sink.put character right)) :
    Stepper.LockStep (stepper program) (stepper program) (Matches (σ := σ) Eq Sinks) := by
  refine lockStep_of_answers program ?_ puts
  rintro source _ rfl
  exact ⟨rfl, rfl⟩

end Brainfuck
