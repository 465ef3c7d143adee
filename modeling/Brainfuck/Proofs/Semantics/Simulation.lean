import Brainfuck.Semantics.Stepper

/-!
# Simulations between steppers

One stepper simulates another if related places lead to related places: either
both take a step that counts for as much, fails alike and logs alike, or the
left one takes a step that counts for nothing, which it can do only finitely
often in a row. Then both succeed, fail or go on for ever together, whichever of
them is looked at first. What `shown` leaves out of a log need not agree.
-/

namespace Brainfuck.Stepper

variable {α β : Type}

/-- Both take a step that counts, fails and logs alike, and stay related. -/
structure StepTogether (left : Stepper α) (right : Stepper β) (shown : Event -> Bool)
    (Related : α -> β -> Prop) (current : α) (image : β) : Prop where
  unfinished : right.finished image = false
  weight : left.weight current = right.weight image
  failure? : (left.step current).failure? = (right.step image).failure?
  events : (left.step current).events.filter shown = (right.step image).events.filter shown
  related : Related (left.step current).after (right.step image).after

theorem StepTogether.of_steps {left : Stepper α} {right : Stepper β} {shown : Event -> Bool}
    {Related : α -> β -> Prop} {current next : α} {image last : β} {failure? : Option IoFailure}
    {events logged : List Event} (unfinished : right.finished image = false)
    (weight : left.weight current = right.weight image)
    (steppedLeft : left.step current = ⟨next, failure?, events⟩)
    (steppedRight : right.step image = ⟨last, failure?, logged⟩)
    (sameEvents : events.filter shown = logged.filter shown) (related : Related next last) :
    StepTogether left right shown Related current image where
  unfinished := unfinished
  weight := weight
  failure? := by rw [steppedLeft, steppedRight]
  events := by rw [steppedLeft, steppedRight, sameEvents]
  related := by rwa [steppedLeft, steppedRight]

/-- The left one takes a step that counts for nothing and comes nearer to one
that counts. -/
structure StepSilently (left : Stepper α) (Related : α -> β -> Prop) (remaining : α -> Nat)
    (current : α) (image : β) : Prop where
  weightless : left.weight current = 0
  failure? : (left.step current).failure? = none
  events : (left.step current).events = []
  nearer : remaining (left.step current).after < remaining current
  related : Related (left.step current).after image

/-- A relation that both steppers keep; `remaining` bounds the silent steps of the
left one. -/
structure Simulation (left : Stepper α) (right : Stepper β) (shown : Event -> Bool) where
  Related : α -> β -> Prop
  remaining : α -> Nat
  finishes : forall {current image}, Related current image -> left.finished current = true ->
    right.finished image = true
  proceeds : forall {current image}, Related current image -> left.finished current = false ->
    StepTogether left right shown Related current image ∨
      StepSilently left Related remaining current image

namespace Simulation

variable {left : Stepper α} {right : Stepper β} {shown : Event -> Bool}
  (simulation : Simulation left right shown)

/-- Silent steps lead to where both are finished or both take a step that counts. -/
theorem exists_settled {current : α} {image : β} (related : simulation.Related current image) :
    ∃ settled, left.Path anywhere current 0 [] settled ∧ simulation.Related settled image ∧
      (left.finished settled = true ∧ right.finished image = true ∨
        left.finished settled = false ∧
          StepTogether left right shown simulation.Related settled image) := by
  induction distance : simulation.remaining current using Nat.strongRecOn generalizing current with
  | ind distance nearer =>
  cases finished : left.finished current with
  | true =>
      exact ⟨current, .refl, related, .inl ⟨finished, simulation.finishes related finished⟩⟩
  | false =>
      rcases simulation.proceeds related finished with together | silent
      · exact ⟨current, .refl, related, .inr ⟨finished, together⟩⟩
      · have less := silent.nearer
        rw [distance] at less
        obtain ⟨settled, path, relatedThere, outcome⟩ := nearer _ less silent.related rfl
        have stepped : left.step current = ⟨(left.step current).after, none, []⟩ :=
          Attempt.ext rfl silent.failure? silent.events
        refine ⟨settled, ?_, relatedThere, outcome⟩
        simpa [silent.weightless] using Path.step .intro finished stepped path

/-- Where the left one comes to an end, so does the right one. -/
theorem ends_right {current final : α} {image : β} {count : Nat} {events : List Event}
    {failure? : Option IoFailure} (ends : left.Ends current count events failure? final)
    (related : simulation.Related current image) :
    ∃ logged last, right.Ends image count logged failure? last ∧
      events.filter shown = logged.filter shown ∧ simulation.Related final last := by
  induction ends generalizing image with
  | finished finished =>
      exact ⟨[], image, .finished (simulation.finishes related finished), rfl, related⟩
  | @failed current next failure events unfinished stepped =>
      rcases simulation.proceeds related unfinished with together | silent
      · obtain ⟨unfinishedRight, -, sameFailure, sameEvents, relatedNext⟩ := together
        rw [stepped] at sameFailure sameEvents relatedNext
        exact ⟨_, _, .of_failed unfinishedRight sameFailure.symm, sameEvents, relatedNext⟩
      · have noFailure := silent.failure?
        simp [stepped] at noFailure
  | @step current next final count events later failure? unfinished stepped _
      inductionHypothesis =>
      rcases simulation.proceeds related unfinished with together | silent
      · obtain ⟨unfinishedRight, weight, sameFailure, sameEvents, relatedNext⟩ := together
        rw [stepped] at sameFailure sameEvents relatedNext
        obtain ⟨logged, last, onward, sameLater, relatedLast⟩ := inductionHypothesis relatedNext
        have ends := Ends.of_succeeded unfinishedRight sameFailure.symm onward
        rw [← weight] at ends
        refine ⟨_, last, ends, ?_, relatedLast⟩
        rw [List.filter_append, List.filter_append, sameEvents, sameLater]
      · have noEvents := silent.events
        have relatedNext := silent.related
        rw [stepped] at noEvents relatedNext
        obtain rfl : events = [] := noEvents
        rw [silent.weightless, Nat.zero_add]
        exact inductionHypothesis relatedNext

/-- Where the right one comes to an end, so does the left one. -/
theorem ends_left {current : α} {image last : β} {count : Nat} {logged : List Event}
    {failure? : Option IoFailure} (ends : right.Ends image count logged failure? last)
    (related : simulation.Related current image) :
    ∃ events final, left.Ends current count events failure? final ∧
      events.filter shown = logged.filter shown ∧ simulation.Related final last := by
  -- Each time the left one first takes the silent steps that stand before the next one that counts.
  induction ends generalizing current with
  | @finished image finished =>
      obtain ⟨settled, path, relatedThere, ⟨finishedLeft, -⟩ | ⟨-, together⟩⟩ :=
        simulation.exists_settled related
      · exact ⟨[], settled, path.ends (.finished finishedLeft), rfl, relatedThere⟩
      · have unfinished := together.unfinished
        simp [finished] at unfinished
  | @failed image next failure logged unfinished stepped =>
      obtain ⟨settled, path, -, ⟨-, finished⟩ | ⟨unfinishedLeft, together⟩⟩ :=
        simulation.exists_settled related
      · simp [finished] at unfinished
      · obtain ⟨-, -, sameFailure, sameEvents, relatedNext⟩ := together
        rw [stepped] at sameFailure sameEvents relatedNext
        have ends := path.ends (.of_failed unfinishedLeft sameFailure)
        exact ⟨_, _, by simpa using ends, sameEvents, relatedNext⟩
  | @step image next last count logged later failure? unfinished stepped _
      inductionHypothesis =>
      obtain ⟨settled, path, -, ⟨-, finished⟩ | ⟨unfinishedLeft, together⟩⟩ :=
        simulation.exists_settled related
      · simp [finished] at unfinished
      · obtain ⟨-, weight, sameFailure, sameEvents, relatedNext⟩ := together
        rw [stepped] at sameFailure sameEvents relatedNext
        obtain ⟨events, final, onward, sameLater, relatedLast⟩ := inductionHypothesis relatedNext
        have ends := path.ends (.of_succeeded unfinishedLeft sameFailure onward)
        rw [weight, Nat.zero_add, List.nil_append] at ends
        refine ⟨_, final, ends, ?_, relatedLast⟩
        rw [List.filter_append, List.filter_append, sameEvents, sameLater]

/-- Where the left one succeeds, the right one does with the same count. -/
theorem succeeds_right {current final : α} {image : β} {count : Nat}
    (succeeds : left.Succeeds current count final) (related : simulation.Related current image) :
    ∃ last, right.Succeeds image count last ∧ simulation.Related final last := by
  obtain ⟨events, ends⟩ := succeeds_iff.mp succeeds
  obtain ⟨logged, last, endsRight, -, relatedLast⟩ := simulation.ends_right ends related
  exact ⟨last, succeeds_iff.mpr ⟨logged, endsRight⟩, relatedLast⟩

/-- Where the right one succeeds, the left one does with the same count. -/
theorem succeeds_left {current : α} {image last : β} {count : Nat}
    (succeeds : right.Succeeds image count last) (related : simulation.Related current image) :
    ∃ final, left.Succeeds current count final ∧ simulation.Related final last := by
  obtain ⟨logged, ends⟩ := succeeds_iff.mp succeeds
  obtain ⟨events, final, endsLeft, -, relatedFinal⟩ := simulation.ends_left ends related
  exact ⟨final, succeeds_iff.mpr ⟨events, endsLeft⟩, relatedFinal⟩

/-- Where the left one fails, the right one fails alike. -/
theorem fails_right {current final : α} {image : β} {failure : IoFailure}
    (fails : left.Fails current failure final) (related : simulation.Related current image) :
    ∃ last, right.Fails image failure last ∧ simulation.Related final last := by
  obtain ⟨count, events, ends⟩ := fails_iff.mp fails
  obtain ⟨logged, last, endsRight, -, relatedLast⟩ := simulation.ends_right ends related
  exact ⟨last, fails_iff.mpr ⟨count, logged, endsRight⟩, relatedLast⟩

/-- Where the right one fails, the left one fails alike. -/
theorem fails_left {current : α} {image last : β} {failure : IoFailure}
    (fails : right.Fails image failure last) (related : simulation.Related current image) :
    ∃ final, left.Fails current failure final ∧ simulation.Related final last := by
  obtain ⟨count, logged, ends⟩ := fails_iff.mp fails
  obtain ⟨events, final, endsLeft, -, relatedFinal⟩ := simulation.ends_left ends related
  exact ⟨final, fails_iff.mpr ⟨count, events, endsLeft⟩, relatedFinal⟩

/-- Related steppers go on for ever together. -/
theorem diverges_iff {current : α} {image : β} (related : simulation.Related current image) :
    left.Diverges current ↔ right.Diverges image := by
  rw [Stepper.diverges_iff, Stepper.diverges_iff]
  constructor
  · intro endless count logged failure? last ends
    obtain ⟨events, final, endsLeft, -, -⟩ := simulation.ends_left ends related
    exact endless count events failure? final endsLeft
  · intro endless count events failure? final ends
    obtain ⟨logged, last, endsRight, -, -⟩ := simulation.ends_right ends related
    exact endless count logged failure? last endsRight

/-- At every moment, failures or not, related steppers stay related: after some
attempts of the left one the right one has made as many as those count for. -/
theorem attempts_related
    (idle : forall {current}, left.finished current = true ->
      left.weight current = 0 ∧ (left.step current).after = current)
    (single : forall image, right.weight image = 1) (count : Nat) {current : α} {image : β}
    (related : simulation.Related current image) :
    simulation.Related (left.attempts count current)
      (right.attempts (left.spent count current) image) := by
  induction count generalizing current image with
  | zero => exact related
  | succ count inductionHypothesis =>
      cases finished : left.finished current with
      | true =>
          obtain ⟨weightless, stays⟩ := idle finished
          rw [attempts, spent, weightless, stays, Nat.zero_add]
          exact inductionHypothesis related
      | false =>
          rcases simulation.proceeds related finished with together | silent
          · have weight := together.weight.trans (single image)
            rw [attempts, spent, weight, Nat.add_comm 1]
            exact inductionHypothesis together.related
          · rw [attempts, spent, silent.weightless, Nat.zero_add]
            exact inductionHypothesis silent.related

end Simulation

end Brainfuck.Stepper
