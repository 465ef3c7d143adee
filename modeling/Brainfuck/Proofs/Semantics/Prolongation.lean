import Brainfuck.Semantics.Stepper

/-!
# Steppers that go on

One stepper `Prolongs` another if it takes the same steps until the other one is
finished, and goes on from there. Until then both are at the same places
(`Stepper.Prolongs.attempts`), and where the longer one ends, the shorter one has
either failed or been finished on the way (`Stepper.Prolongs.split`).
-/

namespace Brainfuck

namespace Stepper

variable {α : Type} {longer shorter : Stepper α} {Within : α -> Prop}

/-- Within some places, which the shorter one does not leave, the longer one takes the
same steps for as long as the shorter one is not finished. -/
structure Prolongs (longer shorter : Stepper α) (Within : α -> Prop) : Prop where
  unfinished : ∀ {current}, Within current -> shorter.finished current = false ->
    longer.finished current = false
  weight : ∀ current, longer.weight current = shorter.weight current
  step : ∀ {current}, Within current -> shorter.finished current = false ->
    longer.step current = shorter.step current
  keeps : ∀ {current}, Within current -> Within (shorter.step current).after

namespace Prolongs

/-- The shorter one ends within the places that it does not leave. -/
theorem within_of_ends (prolongs : Prolongs longer shorter Within) {current final : α}
    {count : Nat} {events : List Event} {failure? : Option IoFailure}
    (ends : shorter.Ends current count events failure? final) (within : Within current) :
    Within final := by
  induction ends with
  | finished => exact within
  | failed _ stepped =>
      have there := prolongs.keeps within
      rwa [stepped] at there
  | step _ stepped _ inductionHypothesis =>
      have there := prolongs.keeps within
      rw [stepped] at there
      exact inductionHypothesis there

/-- Where the shorter one succeeds, the longer one gets to as well. -/
theorem path (prolongs : Prolongs longer shorter Within) {current final : α} {count : Nat}
    {events : List Event} (ends : shorter.Ends current count events none final)
    (within : Within current) : longer.Path anywhere current count events final := by
  generalize succeeded : (none : Option IoFailure) = failure? at ends
  induction ends with
  | finished => exact .refl
  | failed => simp at succeeded
  | @step current next final count events later failure? unfinished stepped _
      inductionHypothesis =>
      have there := prolongs.keeps within
      rw [stepped] at there
      have steppedToo : longer.step current = ⟨next, none, events⟩ := by
        rw [prolongs.step within unfinished, stepped]
      rw [← prolongs.weight]
      exact .step .intro (prolongs.unfinished within unfinished) steppedToo
        (inductionHypothesis there succeeded)

/-- Where the shorter one fails, the longer one fails as well. -/
theorem fails (prolongs : Prolongs longer shorter Within) {current final : α} {count : Nat}
    {events : List Event} {failure : IoFailure}
    (ends : shorter.Ends current count events (some failure) final) (within : Within current) :
    longer.Ends current count events (some failure) final := by
  generalize failed : some failure = failure? at ends ⊢
  induction ends with
  | finished => simp at failed
  | failed unfinished stepped =>
      rw [← prolongs.step within unfinished] at stepped
      exact .failed (prolongs.unfinished within unfinished) stepped
  | step unfinished stepped _ inductionHypothesis =>
      have there := prolongs.keeps within
      rw [stepped] at there
      rw [← prolongs.step within unfinished] at stepped
      rw [← prolongs.weight]
      exact .step (prolongs.unfinished within unfinished) stepped
        (inductionHypothesis there failed)

/-- Where the longer one ends, either the shorter one has failed there, or it has been
finished on the way. -/
theorem split (prolongs : Prolongs longer shorter Within) {current final : α} {count : Nat}
    {events : List Event} {failure? : Option IoFailure}
    (ends : longer.Ends current count events failure? final) (within : Within current) :
    (∃ failure, failure? = some failure ∧
        shorter.Ends current count events (some failure) final) ∨
      ∃ earlier before middle later behind, count = earlier + later ∧
        shorter.Ends current earlier before none middle ∧ Within middle ∧
        longer.Ends middle later behind failure? final := by
  induction ends with
  | @finished current finished =>
      cases finishedToo : shorter.finished current with
      | true =>
          exact .inr ⟨0, [], current, 0, [], rfl, .finished finishedToo, within,
            .finished finished⟩
      | false =>
          have unfinished := prolongs.unfinished within finishedToo
          simp [finished] at unfinished
  | @failed current next failure events unfinished stepped =>
      cases finished : shorter.finished current with
      | true =>
          exact .inr ⟨0, [], current, 0, events, rfl, .finished finished, within,
            .failed unfinished stepped⟩
      | false =>
          rw [prolongs.step within finished] at stepped
          exact .inl ⟨failure, rfl, .failed finished stepped⟩
  | @step current next final count events later failure? unfinished stepped onward
      inductionHypothesis =>
      cases finished : shorter.finished current with
      | true =>
          exact .inr ⟨0, [], current, _, _, (Nat.zero_add _).symm, .finished finished, within,
            .step unfinished stepped onward⟩
      | false =>
          rw [prolongs.step within finished] at stepped
          have there := prolongs.keeps within
          rw [stepped] at there
          rw [prolongs.weight]
          rcases inductionHypothesis there with ⟨failure, failed, ends⟩ |
            ⟨earlier, before, middle, last, behind, rfl, ends, withinMiddle, endsThere⟩
          · exact .inl ⟨failure, failed, .step finished stepped ends⟩
          · exact .inr ⟨_, _, middle, last, behind, (Nat.add_assoc ..).symm,
              .step finished stepped ends, withinMiddle, endsThere⟩

/-- Until the shorter one is finished, both are at the same place at every moment. -/
theorem attempts (prolongs : Prolongs longer shorter Within) (count : Nat) {current : α}
    (within : Within current)
    (unfinished : ∀ fewer, fewer < count ->
      shorter.finished (shorter.attempts fewer current) = false) :
    longer.attempts count current = shorter.attempts count current := by
  induction count generalizing current with
  | zero => rfl
  | succ count inductionHypothesis =>
      have here : shorter.finished current = false := unfinished 0 (Nat.succ_pos count)
      rw [Stepper.attempts, Stepper.attempts, prolongs.step within here]
      exact inductionHypothesis (prolongs.keeps within) fun fewer less =>
        unfinished (fewer + 1) (Nat.succ_lt_succ less)

end Prolongs

end Stepper

end Brainfuck
