import Brainfuck.Machine.Interpreter

/-!
# Steppers

What the machines of this library have in common: something is stepped until it
is finished or a step fails. `Stepper.run` does so on limited fuel. `Stepper.Ends`
says the same without any fuel, and `Stepper.Path` follows successful steps to
some place on the way. A stepper from which nothing `Ends` goes on for ever.
-/

namespace Brainfuck

/-- Something that is stepped until it is finished. Each step counts for its
weight. -/
structure Stepper (α : Type) where
  finished : α -> Bool
  step : α -> Attempt α
  weight : α -> Nat

/-- Where a run left off, how it ended, and what its steps logged. -/
structure Stepper.Outcome (α : Type) where
  after : α
  ending : Ending
  events : List Event

/-- The ending of a run whose last step failed or which needed no step more,
after steps of this weight. -/
def Ending.settled (count : Nat) : Option IoFailure -> Ending
  | none => .finished count
  | some failure => .failed failure

@[simp] theorem Ending.afterSteps_settled (earlier later : Nat) (failure? : Option IoFailure) :
    (Ending.settled later failure?).afterSteps earlier =
      Ending.settled (earlier + later) failure? := by
  cases failure? <;> rfl

@[simp] theorem Ending.settled_ne_exhausted (count : Nat) (failure? : Option IoFailure) :
    Ending.settled count failure? ≠ .exhausted := by
  cases failure? <;> simp [settled]

namespace Stepper

variable {α : Type} (stepper : Stepper α)

/-- Steps until finished, until a step fails, or until the fuel is used up. -/
def run (fuel : Nat) (current : α) : Outcome α :=
  if stepper.finished current then
    ⟨current, .finished 0, []⟩
  else
    match fuel with
    | 0 => ⟨current, .exhausted, []⟩
    | fuel + 1 =>
        match stepper.step current with
        | ⟨next, none, events⟩ =>
            let later := run fuel next
            ⟨later.after, later.ending.afterSteps (stepper.weight current),
              events ++ later.events⟩
        | ⟨next, some failure, events⟩ => ⟨next, .failed failure, events⟩

/-- With enough fuel a run finishes, its steps having this weight. -/
def Succeeds (current : α) (count : Nat) (final : α) : Prop :=
  ∃ fuel, (stepper.run fuel current).ending = .finished count ∧
    (stepper.run fuel current).after = final

/-- With enough fuel a run fails. -/
def Fails (current : α) (failure : IoFailure) (final : α) : Prop :=
  ∃ fuel, (stepper.run fuel current).ending = .failed failure ∧
    (stepper.run fuel current).after = final

/-- No fuel is enough for a run to come to an end. -/
def Diverges (current : α) : Prop :=
  forall fuel, (stepper.run fuel current).ending = .exhausted

/-- Where a number of attempts leads, going on after failures. -/
def attempts : Nat -> α -> α
  | 0, current => current
  | count + 1, current => attempts count (stepper.step current).after

/-- What a number of attempts counts for. -/
def spent : Nat -> α -> Nat
  | 0, _ => 0
  | count + 1, current => stepper.weight current + spent count (stepper.step current).after

/-- Holds of every place. -/
def anywhere : α -> Prop :=
  fun _ => True

/-- Zero or more successful steps, none of them from where it is finished: what
they count for, and what they log. Each step is taken from where `holds` does. -/
inductive Path (holds : α -> Prop) : α -> Nat -> List Event -> α -> Prop where
  | refl {current : α} : Path holds current 0 [] current
  | step {current next final : α} {count : Nat} {events later : List Event}
      (here : holds current) (unfinished : stepper.finished current = false)
      (stepped : stepper.step current = ⟨next, none, events⟩)
      (onward : Path holds next count later final) :
      Path holds current (stepper.weight current + count) (events ++ later) final

/-- The end of all stepping: it is finished, or a step fails. The count is that
of the successful steps before. -/
inductive Ends : α -> Nat -> List Event -> Option IoFailure -> α -> Prop where
  | finished {current : α} (finished : stepper.finished current = true) :
      Ends current 0 [] none current
  | failed {current next : α} {failure : IoFailure} {events : List Event}
      (unfinished : stepper.finished current = false)
      (stepped : stepper.step current = ⟨next, some failure, events⟩) :
      Ends current 0 events (some failure) next
  | step {current next final : α} {count : Nat} {events later : List Event}
      {failure? : Option IoFailure} (unfinished : stepper.finished current = false)
      (stepped : stepper.step current = ⟨next, none, events⟩)
      (onward : Ends next count later failure? final) :
      Ends current (stepper.weight current + count) (events ++ later) failure? final

variable {stepper}

/-- A run from where it is finished takes no step. -/
theorem run_of_finished (fuel : Nat) {current : α}
    (finished : stepper.finished current = true) :
    stepper.run fuel current = ⟨current, .finished 0, []⟩ := by
  unfold run
  rw [if_pos finished]

/-- A run without fuel is exhausted where it is not finished. -/
theorem run_zero {current : α} (unfinished : stepper.finished current = false) :
    stepper.run 0 current = ⟨current, .exhausted, []⟩ := by
  simp [run, unfinished]

/-- A run goes on from where a successful step led. -/
theorem run_of_step (fuel : Nat) {current next : α} {events : List Event}
    (unfinished : stepper.finished current = false)
    (stepped : stepper.step current = ⟨next, none, events⟩) :
    stepper.run (fuel + 1) current =
      ⟨(stepper.run fuel next).after,
        (stepper.run fuel next).ending.afterSteps (stepper.weight current),
        events ++ (stepper.run fuel next).events⟩ := by
  rw [run]
  simp [unfinished, stepped]

/-- A run ends with the first step that fails. -/
theorem run_of_failure (fuel : Nat) {current next : α} {failure : IoFailure}
    {events : List Event} (unfinished : stepper.finished current = false)
    (stepped : stepper.step current = ⟨next, some failure, events⟩) :
    stepper.run (fuel + 1) current = ⟨next, .failed failure, events⟩ := by
  rw [run]
  simp [unfinished, stepped]

/-- Where a step fails, stepping ends. -/
theorem Ends.of_failed {current : α} {failure : IoFailure}
    (unfinished : stepper.finished current = false)
    (failed : (stepper.step current).failure? = some failure) :
    stepper.Ends current 0 (stepper.step current).events (some failure)
      (stepper.step current).after :=
  .failed unfinished (Attempt.ext rfl failed rfl)

/-- Where a step succeeds, stepping ends as it does from there on. -/
theorem Ends.of_succeeded {current final : α} {count : Nat} {later : List Event}
    {failure? : Option IoFailure} (unfinished : stepper.finished current = false)
    (succeeded : (stepper.step current).failure? = none)
    (onward : stepper.Ends (stepper.step current).after count later failure? final) :
    stepper.Ends current (stepper.weight current + count)
      ((stepper.step current).events ++ later) failure? final :=
  .step unfinished (Attempt.ext rfl succeeded rfl) onward

/-- One successful step is a path. -/
theorem Path.single {holds : α -> Prop} {current next : α} {events : List Event}
    (here : holds current) (unfinished : stepper.finished current = false)
    (stepped : stepper.step current = ⟨next, none, events⟩) :
    stepper.Path holds current (stepper.weight current) events next := by
  simpa using Path.step here unfinished stepped .refl

/-- One path after another. -/
theorem Path.trans {holds : α -> Prop} {first middle last : α} {earlier later : Nat}
    {before behind : List Event} (onto : stepper.Path holds first earlier before middle)
    (onward : stepper.Path holds middle later behind last) :
    stepper.Path holds first (earlier + later) (before ++ behind) last := by
  induction onto with
  | refl => simpa using onward
  | step here unfinished stepped _ inductionHypothesis =>
      rw [Nat.add_assoc, List.append_assoc]
      exact .step here unfinished stepped (inductionHypothesis onward)

/-- A path leads to where the stepping ends. -/
theorem Path.ends {holds : α -> Prop} {first middle last : α} {earlier later : Nat}
    {before behind : List Event} {failure? : Option IoFailure}
    (path : stepper.Path holds first earlier before middle)
    (ends : stepper.Ends middle later behind failure? last) :
    stepper.Ends first (earlier + later) (before ++ behind) failure? last := by
  induction path with
  | refl => simpa using ends
  | step _ unfinished stepped _ inductionHypothesis =>
      rw [Nat.add_assoc, List.append_assoc]
      exact .step unfinished stepped (inductionHypothesis ends)

/-- Stepping ends in one way only. -/
theorem Ends.deterministic {current left right : α} {leftCount rightCount : Nat}
    {leftEvents rightEvents : List Event} {leftFailure? rightFailure? : Option IoFailure}
    (first : stepper.Ends current leftCount leftEvents leftFailure? left)
    (second : stepper.Ends current rightCount rightEvents rightFailure? right) :
    leftCount = rightCount ∧ leftEvents = rightEvents ∧ leftFailure? = rightFailure? ∧
      left = right := by
  induction first generalizing rightCount rightEvents with
  | finished finished =>
      cases second with
      | finished => simp
      | failed unfinished => simp [finished] at unfinished
      | step unfinished => simp [finished] at unfinished
  | failed unfinished stepped =>
      cases second with
      | finished finished => simp [finished] at unfinished
      | failed _ steppedAgain =>
          obtain ⟨rfl, sameFailure, rfl⟩ := Attempt.mk.inj (stepped.symm.trans steppedAgain)
          exact ⟨rfl, rfl, sameFailure, rfl⟩
      | step _ steppedAgain => simp [stepped] at steppedAgain
  | step unfinished stepped _ inductionHypothesis =>
      cases second with
      | finished finished => simp [finished] at unfinished
      | failed _ steppedAgain => simp [stepped] at steppedAgain
      | step _ steppedAgain onward =>
          obtain ⟨rfl, -, rfl⟩ := Attempt.mk.inj (stepped.symm.trans steppedAgain)
          obtain ⟨rfl, rfl, sameFailure, sameEnd⟩ := inductionHypothesis onward
          exact ⟨rfl, rfl, sameFailure, sameEnd⟩

/-- Where a step succeeds, stepping ends as it does from there on. -/
theorem Ends.of_step {current next final : α} {count : Nat} {events logged : List Event}
    {failure? : Option IoFailure} (ends : stepper.Ends current count logged failure? final)
    (unfinished : stepper.finished current = false)
    (stepped : stepper.step current = ⟨next, none, events⟩) :
    ∃ fewer later, count = stepper.weight current + fewer ∧
      stepper.Ends next fewer later failure? final := by
  cases ends with
  | finished finished => simp [finished] at unfinished
  | failed _ steppedAgain => simp [stepped] at steppedAgain
  | step _ steppedAgain onward =>
      obtain ⟨rfl, -, -⟩ := Attempt.mk.inj (stepped.symm.trans steppedAgain)
      exact ⟨_, _, rfl, onward⟩

/-- Where a step fails, stepping ends with it. -/
theorem Ends.of_failure {current next final : α} {failure : IoFailure} {count : Nat}
    {events logged : List Event} {failure? : Option IoFailure}
    (ends : stepper.Ends current count logged failure? final)
    (unfinished : stepper.finished current = false)
    (stepped : stepper.step current = ⟨next, some failure, events⟩) :
    failure? = some failure ∧ final = next := by
  cases ends with
  | finished finished => simp [finished] at unfinished
  | failed _ steppedAgain =>
      obtain ⟨rfl, sameFailure, -⟩ := Attempt.mk.inj (stepped.symm.trans steppedAgain)
      exact ⟨sameFailure.symm, rfl⟩
  | step _ steppedAgain => simp [stepped] at steppedAgain

/-- Where stepping ends without a failure, it is finished. -/
theorem Ends.finished_of_none {current final : α} {count : Nat} {events : List Event}
    (ends : stepper.Ends current count events none final) : stepper.finished final = true := by
  generalize succeeded : (none : Option IoFailure) = failure? at ends
  induction ends with
  | finished finished => exact finished
  | failed => simp at succeeded
  | step _ _ _ inductionHypothesis => exact inductionHypothesis succeeded

/-- Where stepping ends, a run with enough fuel comes to that end. -/
theorem Ends.exists_run {current final : α} {count : Nat} {events : List Event}
    {failure? : Option IoFailure} (ends : stepper.Ends current count events failure? final) :
    ∃ fuel, stepper.run fuel current = ⟨final, .settled count failure?, events⟩ := by
  induction ends with
  | finished finished => exact ⟨0, by simp [run, finished, Ending.settled]⟩
  | failed unfinished stepped =>
      exact ⟨1, by simp [run, unfinished, stepped, Ending.settled]⟩
  | step unfinished stepped _ inductionHypothesis =>
      obtain ⟨fuel, ran⟩ := inductionHypothesis
      exact ⟨fuel + 1, by rw [run]; simp [unfinished, stepped, ran]⟩

/-- A run that has not used up its fuel has come to the end of the stepping. -/
theorem ends_of_run {fuel : Nat} {current : α}
    (settled : (stepper.run fuel current).ending ≠ .exhausted) :
    ∃ count failure?, (stepper.run fuel current).ending = .settled count failure? ∧
      stepper.Ends current count (stepper.run fuel current).events failure?
        (stepper.run fuel current).after := by
  induction fuel generalizing current with
  | zero =>
      cases finished : stepper.finished current with
      | true => exact ⟨0, none, by simp [run, finished, Ending.settled, Ends.finished]⟩
      | false => simp [run, finished] at settled
  | succ fuel inductionHypothesis =>
      cases finished : stepper.finished current with
      | true => exact ⟨0, none, by simp [run, finished, Ending.settled, Ends.finished]⟩
      | false =>
          rcases stepped : stepper.step current with ⟨next, _ | failure, events⟩
          · have ran := run_of_step fuel finished stepped
            have settledLater : (stepper.run fuel next).ending ≠ .exhausted := by
              intro exhausted
              exact settled (by simp [ran, exhausted, Ending.afterSteps])
            obtain ⟨count, failure?, ending, ends⟩ := inductionHypothesis settledLater
            rw [ran]
            exact ⟨_, failure?, by simp [ending], .step finished stepped ends⟩
          · rw [run_of_failure fuel finished stepped]
            exact ⟨0, some failure, rfl, .failed finished stepped⟩

/-- A run succeeds exactly where the stepping ends without a failure. -/
theorem succeeds_iff {current final : α} {count : Nat} :
    stepper.Succeeds current count final ↔
      ∃ events, stepper.Ends current count events none final := by
  constructor
  · rintro ⟨fuel, finished, rfl⟩
    have settled : (stepper.run fuel current).ending ≠ .exhausted := by simp [finished]
    obtain ⟨found, failure?, ending, ends⟩ := ends_of_run settled
    rw [finished] at ending
    cases failure? with
    | none =>
        obtain rfl := Ending.finished.inj ending
        exact ⟨_, ends⟩
    | some failure => simp [Ending.settled] at ending
  · rintro ⟨events, ends⟩
    obtain ⟨fuel, ran⟩ := ends.exists_run
    exact ⟨fuel, by simp [ran, Ending.settled]⟩

/-- A run fails exactly where the stepping ends with that failure. -/
theorem fails_iff {current final : α} {failure : IoFailure} :
    stepper.Fails current failure final ↔
      ∃ count events, stepper.Ends current count events (some failure) final := by
  constructor
  · rintro ⟨fuel, failed, rfl⟩
    have settled : (stepper.run fuel current).ending ≠ .exhausted := by simp [failed]
    obtain ⟨count, failure?, ending, ends⟩ := ends_of_run settled
    rw [failed] at ending
    cases failure? with
    | none => simp [Ending.settled] at ending
    | some found =>
        obtain rfl := Ending.failed.inj ending
        exact ⟨count, _, ends⟩
  · rintro ⟨count, events, ends⟩
    obtain ⟨fuel, ran⟩ := ends.exists_run
    exact ⟨fuel, by simp [ran, Ending.settled]⟩

/-- A run goes on for ever exactly if the stepping has no end. -/
theorem diverges_iff {current : α} :
    stepper.Diverges current ↔
      ∀ count events failure? final, ¬ stepper.Ends current count events failure? final := by
  constructor
  · intro exhausted count events failure? final ends
    obtain ⟨fuel, ran⟩ := ends.exists_run
    have stuck := exhausted fuel
    rw [ran] at stuck
    exact Ending.settled_ne_exhausted count failure? stuck
  · intro endless fuel
    by_cases exhausted : (stepper.run fuel current).ending = .exhausted
    · exact exhausted
    · obtain ⟨count, failure?, -, ends⟩ := ends_of_run exhausted
      exact absurd ends (endless _ _ _ _)

end Stepper

namespace Machine

variable {σ τ : Type} [Source σ] [Sink τ]

/-- A machine is stepped through its program; each step counts. -/
def stepper (program : Program) : Stepper (Machine σ τ) where
  finished := finished program
  step := step program
  weight _ := 1

/-- Running a machine is running its stepper. -/
theorem run_eq_stepper (program : Program) (fuel : Nat) (machine : Machine σ τ) :
    run program fuel machine =
      ⟨((stepper program).run fuel machine).after, ((stepper program).run fuel machine).ending,
        ((stepper program).run fuel machine).events⟩ := by
  induction fuel generalizing machine with
  | zero =>
      cases finished : machine.finished program with
      | true => simp [run_of_finished finished, Stepper.run, stepper, finished]
      | false => simp [run_zero finished, Stepper.run, stepper, finished]
  | succ fuel inductionHypothesis =>
      rw [Stepper.run]
      cases finished : machine.finished program with
      | true => simp [run_of_finished finished, stepper, finished]
      | false =>
          rcases stepped : machine.step program with ⟨next, _ | failure, events⟩
          · rw [run_of_step finished stepped, inductionHypothesis next]
            simp [stepper, finished, stepped, Run.afterSteps]
          · rw [run_of_failure finished stepped]
            simp [stepper, finished, stepped]

/-- A path to the end of the program is a run with enough fuel. -/
theorem exists_run_of_path {program : Program} {holds : Machine σ τ -> Prop} {count : Nat}
    {events : List Event} {machine final : Machine σ τ}
    (path : (stepper program).Path holds machine count events final)
    (finished : final.finished program = true) :
    ∃ fuel, run program fuel machine = ⟨final, .finished count, events⟩ := by
  have ends := path.ends (.finished finished)
  rw [Nat.add_zero, List.append_nil] at ends
  obtain ⟨fuel, ran⟩ := ends.exists_run
  exact ⟨fuel, by simp [run_eq_stepper, ran, Ending.settled]⟩

end Machine

namespace Interpreter

variable {σ τ : Type} [Source σ] [Sink τ] {interpreter : Interpreter σ τ}

/-- An interpreter succeeds as the stepper of its machine does. -/
theorem succeeds_iff {steps : Nat} {final : Machine σ τ} :
    interpreter.Succeeds steps final ↔
      (Machine.stepper interpreter.program).Succeeds interpreter.machine steps final := by
  simp only [Succeeds, run, Machine.run_eq_stepper, Stepper.Succeeds]

/-- An interpreter fails as the stepper of its machine does. -/
theorem fails_iff {failure : IoFailure} {final : Machine σ τ} :
    interpreter.Fails failure final ↔
      (Machine.stepper interpreter.program).Fails interpreter.machine failure final := by
  simp only [Fails, run, Machine.run_eq_stepper, Stepper.Fails]

/-- An interpreter diverges as the stepper of its machine does. -/
theorem diverges_iff :
    interpreter.Diverges ↔ (Machine.stepper interpreter.program).Diverges interpreter.machine := by
  simp only [Diverges, run, Machine.run_eq_stepper, Stepper.Diverges]

end Interpreter

end Brainfuck
