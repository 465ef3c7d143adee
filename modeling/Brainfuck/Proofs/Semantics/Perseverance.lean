import Brainfuck.Proofs.Semantics.LockStep
import Brainfuck.Proofs.Semantics.Simulation

/-!
# Running again until a run succeeds

An interpreter `Perseveres` if it is run again after each run that fails, until a
run succeeds; the failures of the runs before are kept in order. The same is said
step by step by a stepper that does not stop at failures but notes them: its
steps at failures count for nothing, so that they are the silent steps of a
simulation by a machine that meets no failures.
-/

namespace Brainfuck

namespace Stepper

/-- Something that is stepped on after failures, and the failures met so far. -/
structure Persistence (α : Type) where
  current : α
  met : List IoFailure

variable {α : Type} {stepper : Stepper α}

/-- Steps on after failures, which are noted and count for nothing. -/
def persistent (stepper : Stepper α) : Stepper (Persistence α) where
  finished persistence := stepper.finished persistence.current
  step persistence :=
    match stepper.step persistence.current with
    | ⟨next, none, events⟩ => ⟨⟨next, persistence.met⟩, none, events⟩
    | ⟨next, some failure, events⟩ => ⟨⟨next, persistence.met ++ [failure]⟩, none, events⟩
  weight persistence :=
    match (stepper.step persistence.current).failure? with
    | none => stepper.weight persistence.current
    | some _ => 0

/-- A successful step is one of the persistent stepper. -/
theorem persistent_of_step {current next : α} {events : List Event}
    (stepped : stepper.step current = ⟨next, none, events⟩) (met : List IoFailure) :
    stepper.persistent.step ⟨current, met⟩ = ⟨⟨next, met⟩, none, events⟩ ∧
      stepper.persistent.weight ⟨current, met⟩ = stepper.weight current := by
  simp [persistent, stepped]

/-- A failing step is one of the persistent stepper, which notes the failure. -/
theorem persistent_of_failure {current next : α} {failure : IoFailure} {events : List Event}
    (stepped : stepper.step current = ⟨next, some failure, events⟩) (met : List IoFailure) :
    stepper.persistent.step ⟨current, met⟩ = ⟨⟨next, met ++ [failure]⟩, none, events⟩ ∧
      stepper.persistent.weight ⟨current, met⟩ = 0 := by
  simp [persistent, stepped]

/-- No step of the persistent stepper fails. -/
theorem persistent_step_ne {persistence next : Persistence α} {failure : IoFailure}
    {events : List Event} :
    stepper.persistent.step persistence ≠ ⟨next, some failure, events⟩ := by
  rcases persistence with ⟨current, met⟩
  rcases stepped : stepper.step current with ⟨reached, _ | found, logged⟩
  · simp [(persistent_of_step stepped met).1]
  · simp [(persistent_of_failure stepped met).1]

/-- The persistent stepper does not end with a failure. -/
theorem Ends.failure?_persistent {persistence final : Persistence α} {count : Nat}
    {events : List Event} {failure? : Option IoFailure}
    (ends : stepper.persistent.Ends persistence count events failure? final) :
    failure? = none := by
  induction ends with
  | finished => rfl
  | failed _ stepped => exact absurd stepped persistent_step_ne
  | step _ _ _ inductionHypothesis => exact inductionHypothesis

/-- A successful step that another stepper takes alike is a common step of the
persistent stepper and the other one. -/
theorem persistent_together {β : Type} {other : Stepper β} {Alike : α -> β -> Prop}
    {Related : Persistence α -> β -> Prop} {current : α} {image : β} {met : List IoFailure}
    (unfinished : other.finished image = false)
    (weight : stepper.weight current = other.weight image)
    (succeeds : (stepper.step current).failure? = none)
    (alike : (stepper.step current).Alike Alike (other.step image))
    (related : forall {next last}, Alike next last -> Related ⟨next, met⟩ last) :
    StepTogether stepper.persistent other (fun _ => true) Related ⟨current, met⟩ image := by
  obtain ⟨sameFailure, sameEvents, alikeNext⟩ := alike
  rcases stepped : stepper.step current with ⟨next, _, events⟩
  rw [stepped] at succeeds sameFailure sameEvents alikeNext
  subst succeeds
  obtain ⟨persists, sameWeight⟩ := persistent_of_step stepped met
  have steppedOther : other.step image = ⟨(other.step image).after, none, events⟩ :=
    Attempt.ext rfl sameFailure.symm sameEvents.symm
  exact .of_steps unfinished (sameWeight.trans weight) persists steppedOther rfl
    (related alikeNext)

/-- A failing step is a silent one of the persistent stepper, if it comes nearer to
one that succeeds. -/
theorem persistent_silent {β : Type} {Related : Persistence α -> β -> Prop}
    {remaining : Persistence α -> Nat} {current next : α} {image : β} {met : List IoFailure}
    {failure : IoFailure} (stepped : stepper.step current = ⟨next, some failure, []⟩)
    (nearer : remaining ⟨next, met ++ [failure]⟩ < remaining ⟨current, met⟩)
    (related : Related ⟨next, met ++ [failure]⟩ image) :
    StepSilently stepper.persistent Related remaining ⟨current, met⟩ image := by
  obtain ⟨persists, weightless⟩ := persistent_of_failure stepped met
  exact ⟨weightless, by rw [persists], by rw [persists], by rwa [persists], by rwa [persists]⟩

/-- What an end of the stepping is for the persistent stepper: an end if there is
no failure, and else a place on its way. -/
def PersistsAs (stepper : Stepper α) (met : List IoFailure) (current : α) (count : Nat)
    (events : List Event) (final : α) : Option IoFailure -> Prop
  | none => stepper.persistent.Ends ⟨current, met⟩ count events none ⟨final, met⟩
  | some failure =>
      stepper.persistent.Path anywhere ⟨current, met⟩ count events ⟨final, met ++ [failure]⟩

/-- Where stepping ends, the persistent stepper gets to. -/
theorem Ends.persistsAs {current final : α} {count : Nat} {events : List Event}
    {failure? : Option IoFailure} (ends : stepper.Ends current count events failure? final)
    (met : List IoFailure) : stepper.PersistsAs met current count events final failure? := by
  induction ends with
  | finished finished => exact .finished finished
  | @failed current next failure events unfinished stepped =>
      obtain ⟨persists, weightless⟩ := persistent_of_failure stepped met
      have path : stepper.persistent.Path anywhere ⟨current, met⟩ _ events _ :=
        .single .intro unfinished persists
      rwa [weightless] at path
  | @step _ _ _ _ _ _ failure? unfinished stepped _ inductionHypothesis =>
      obtain ⟨persists, weight⟩ := persistent_of_step stepped met
      rw [← weight]
      cases failure? with
      | none => exact .step unfinished persists inductionHypothesis
      | some failure => exact .step .intro unfinished persists inductionHypothesis

end Stepper

variable {σ τ : Type} [Source σ] [Sink τ]

namespace Machine

variable {program : Program} {machine : Machine σ τ} {met : List IoFailure}

/-- A step at which a machine is answered like another one, and not with a failure,
is taken by both. -/
theorem stepTogether_of_answers {ρ υ : Type} [Source ρ] [Sink υ] {image : Machine ρ υ}
    {Sources : σ -> ρ -> Prop} {Sinks : τ -> υ -> Prop}
    {Related : Stepper.Persistence (Machine σ τ) -> Machine ρ υ -> Prop}
    (now : machine.now = image.now) (unfinished : machine.finished program = false)
    (succeeds : (machine.step program).failure? = none)
    (answers : State.Answers Sources Sinks machine.state image.state (machine.command? program))
    (related : ∀ {next last}, Matches Sources Sinks next last -> Related ⟨next, met⟩ last) :
    Stepper.StepTogether (stepper program).persistent (stepper program) (fun _ => true) Related
      ⟨machine, met⟩ image := by
  rw [finished_eq now] at unfinished
  exact Stepper.persistent_together unfinished rfl succeeds (step_alike now answers) related

/-- A step whose command fails is silent, if it comes nearer to one that succeeds. -/
theorem stepSilently_of_failed {β : Type} {image : β} {command : Command} {next : State σ τ}
    {failure : IoFailure} {Related : Stepper.Persistence (Machine σ τ) -> β -> Prop}
    {remaining : Stepper.Persistence (Machine σ τ) -> Nat}
    (asks : machine.command? program = some command)
    (performed : machine.state.perform command = ⟨next, some failure, []⟩)
    (nearer : remaining ⟨⟨next, machine.now⟩, met ++ [failure]⟩ < remaining ⟨machine, met⟩)
    (related : Related ⟨⟨next, machine.now⟩, met ++ [failure]⟩ image) :
    Stepper.StepSilently (stepper program).persistent Related remaining ⟨machine, met⟩ image :=
  Stepper.persistent_silent (step_of_failed (command?_eq_some_iff.mp asks) performed) nearer related

end Machine

/-- Running again after each failure, in the order of the failures, until a run
succeeds and leaves the machine like this. -/
inductive Interpreter.Perseveres : Interpreter σ τ -> List IoFailure -> Machine σ τ -> Prop where
  | succeeds {interpreter : Interpreter σ τ} {steps : Nat} {final : Machine σ τ}
      (succeeds : interpreter.Succeeds steps final) : Perseveres interpreter [] final
  | fails {interpreter : Interpreter σ τ} {failure : IoFailure} {failures : List IoFailure}
      {next final : Machine σ τ} (fails : interpreter.Fails failure next)
      (onward : Perseveres ⟨interpreter.program, next⟩ failures final) :
      Perseveres interpreter (failure :: failures) final

namespace Interpreter

open Machine (stepper)

variable {interpreter : Interpreter σ τ} {failures : List IoFailure} {final : Machine σ τ}

/-- Perseverance is an end of the persistent stepper, whatever it has met before. -/
theorem Perseveres.ends (perseveres : interpreter.Perseveres failures final)
    (met : List IoFailure) :
    ∃ count events, (stepper interpreter.program).persistent.Ends ⟨interpreter.machine, met⟩
      count events none ⟨final, met ++ failures⟩ := by
  induction perseveres generalizing met with
  | succeeds succeeds =>
      obtain ⟨events, ends⟩ := Stepper.succeeds_iff.mp (succeeds_iff.mp succeeds)
      rw [List.append_nil]
      exact ⟨_, events, ends.persistsAs met⟩
  | @fails interpreter failure _ _ _ fails _ inductionHypothesis =>
      obtain ⟨count, events, ends⟩ := Stepper.fails_iff.mp (fails_iff.mp fails)
      obtain ⟨later, logged, onward⟩ := inductionHypothesis (met ++ [failure])
      rw [List.append_assoc, List.singleton_append] at onward
      have path : (stepper interpreter.program).PersistsAs met _ count events _ (some failure) :=
        ends.persistsAs met
      exact ⟨_, _, Stepper.Path.ends path onward⟩

/-- A successful step in front changes nothing about perseverance. -/
theorem Perseveres.after_step {program : Program} {machine next : Machine σ τ}
    {events : List Event} (unfinished : machine.finished program = false)
    (stepped : machine.step program = ⟨next, none, events⟩)
    (perseveres : Perseveres ⟨program, next⟩ failures final) :
    Perseveres ⟨program, machine⟩ failures final := by
  cases perseveres with
  | succeeds succeeds =>
      obtain ⟨logged, ends⟩ := Stepper.succeeds_iff.mp (succeeds_iff.mp succeeds)
      have endsBefore : (stepper program).Ends machine _ _ _ _ := .step unfinished stepped ends
      exact .succeeds (succeeds_iff.mpr (Stepper.succeeds_iff.mpr ⟨_, endsBefore⟩))
  | fails fails onward =>
      obtain ⟨count, logged, ends⟩ := Stepper.fails_iff.mp (fails_iff.mp fails)
      have endsBefore : (stepper program).Ends machine _ _ _ _ := .step unfinished stepped ends
      exact .fails (fails_iff.mpr (Stepper.fails_iff.mpr ⟨_, _, endsBefore⟩)) onward

/-- An end of the persistent stepper is perseverance through what it has met. -/
theorem perseveres_of_ends {program : Program} {first last : Stepper.Persistence (Machine σ τ)}
    {count : Nat} {events : List Event} {failure? : Option IoFailure}
    (ends : (stepper program).persistent.Ends first count events failure? last) :
    ∃ failures, last.met = first.met ++ failures ∧
      Perseveres ⟨program, first.current⟩ failures last.current := by
  induction ends with
  | @finished persistence finished =>
      have ends : (stepper program).Ends persistence.current 0 [] none persistence.current :=
        .finished finished
      have succeeds : Interpreter.Succeeds ⟨program, persistence.current⟩ 0 persistence.current :=
        succeeds_iff.mpr (Stepper.succeeds_iff.mpr ⟨[], ends⟩)
      exact ⟨[], by simp, .succeeds succeeds⟩
  | failed _ stepped => exact absurd stepped Stepper.persistent_step_ne
  | @step first next _ _ _ _ _ unfinished stepped _ inductionHypothesis =>
      obtain ⟨failures, met, perseveres⟩ := inductionHypothesis
      rcases first with ⟨machine, before⟩
      -- A step that failed ends one run, and the others begin where it left the machine.
      rcases attempt : (stepper program).step machine with ⟨reached, _ | failure, logged⟩
      · rw [(Stepper.persistent_of_step attempt before).1] at stepped
        obtain ⟨rfl, -, -⟩ := Attempt.mk.inj stepped
        exact ⟨failures, met, perseveres.after_step unfinished attempt⟩
      · rw [(Stepper.persistent_of_failure attempt before).1] at stepped
        obtain ⟨rfl, -, -⟩ := Attempt.mk.inj stepped
        refine ⟨failure :: failures, by simpa using met, .fails ?_ perseveres⟩
        have ends : (stepper program).Ends machine 0 logged (some failure) reached :=
          .failed unfinished attempt
        exact fails_iff.mpr (Stepper.fails_iff.mpr ⟨0, logged, ends⟩)

/-- An interpreter perseveres as the persistent stepper of its machine succeeds. -/
theorem perseveres_iff :
    interpreter.Perseveres failures final ↔
      ∃ count, (stepper interpreter.program).persistent.Succeeds ⟨interpreter.machine, []⟩ count
        ⟨final, failures⟩ := by
  constructor
  · intro perseveres
    obtain ⟨count, events, ends⟩ := perseveres.ends []
    exact ⟨count, Stepper.succeeds_iff.mpr ⟨events, ends⟩⟩
  · rintro ⟨count, succeeds⟩
    obtain ⟨events, ends⟩ := Stepper.succeeds_iff.mp succeeds
    obtain ⟨found, rfl, perseveres⟩ := perseveres_of_ends ends
    exact perseveres

/-- An interpreter perseveres as one that goes in lock step with it. -/
theorem Perseveres.exists_of_lockStep {ρ υ : Type} [Source ρ] [Sink υ] {program : Program}
    {image : Machine ρ υ} {Related : Machine σ τ -> Machine ρ υ -> Prop}
    (perseveres : interpreter.Perseveres failures final)
    (lockStep : Stepper.LockStep (stepper interpreter.program) (stepper program) Related)
    (related : Related interpreter.machine image) :
    ∃ last, Perseveres ⟨program, image⟩ failures last ∧ Related final last := by
  induction perseveres generalizing image with
  | succeeds succeeds =>
      obtain ⟨fuel, ending, rfl⟩ := succeeds_iff.mp succeeds
      have alike := lockStep.run fuel related
      have succeedsToo : (stepper program).Succeeds image _ _ :=
        ⟨fuel, alike.ending.symm.trans ending, rfl⟩
      exact ⟨_, .succeeds (succeeds_iff.mpr succeedsToo), alike.related⟩
  | fails fails _ inductionHypothesis =>
      obtain ⟨fuel, ending, rfl⟩ := fails_iff.mp fails
      have alike := lockStep.run fuel related
      have failsToo : (stepper program).Fails image _ _ :=
        ⟨fuel, alike.ending.symm.trans ending, rfl⟩
      obtain ⟨last, onward, relatedLast⟩ := inductionHypothesis lockStep alike.related
      exact ⟨last, .fails (fails_iff.mpr failsToo) onward, relatedLast⟩

/-- Running one interpreter again until it succeeds comes to the same as a single
run of another one, which never fails: the first perseveres exactly if that run
succeeds, and then the failures and the two machines are as `EndsAs` says. -/
structure RetriesAs {ρ υ : Type} [Source ρ] [Sink υ] (retried : Interpreter σ τ)
    (smooth : Interpreter ρ υ)
    (EndsAs : List IoFailure -> Machine σ τ -> Machine ρ υ -> Prop) : Prop where
  never_fails : ∀ failure last, ¬ smooth.Fails failure last
  succeeds : ∀ steps last, smooth.Succeeds steps last ->
    ∃ failures final, retried.Perseveres failures final ∧ EndsAs failures final last
  perseveres : ∀ failures final, retried.Perseveres failures final ->
    ∃ steps last, smooth.Succeeds steps last ∧ EndsAs failures final last
  diverges : smooth.Diverges -> ∀ failures final, ¬ retried.Perseveres failures final

/-- An interpreter is retried as the one that goes in lock step with it: that one perseveres
through the same failures to a related machine, which is left as its own retrying says. -/
theorem RetriesAs.of_lockStep {ρ υ κ ι : Type} [Source ρ] [Sink υ] [Source κ] [Sink ι]
    {retried : Interpreter σ τ} {beside : Interpreter ρ υ} {smooth : Interpreter κ ι}
    {Related : Machine σ τ -> Machine ρ υ -> Prop}
    {EndsAs : List IoFailure -> Machine ρ υ -> Machine κ ι -> Prop}
    (retries : beside.RetriesAs smooth EndsAs)
    (lockStep : Stepper.LockStep (stepper retried.program) (stepper beside.program) Related)
    (related : Related retried.machine beside.machine) :
    retried.RetriesAs smooth fun failures final last => ∃ image,
      beside.Perseveres failures image ∧ Related final image ∧ EndsAs failures image last where
  never_fails := retries.never_fails
  succeeds steps last succeeds := by
    obtain ⟨failures, image, persevered, ended⟩ := retries.succeeds steps last succeeds
    obtain ⟨final, perseveredToo, relatedFinal⟩ :=
      persevered.exists_of_lockStep lockStep.symm related
    exact ⟨failures, final, perseveredToo, image, persevered, relatedFinal, ended⟩
  perseveres failures final persevered := by
    obtain ⟨image, perseveredToo, relatedFinal⟩ := persevered.exists_of_lockStep lockStep related
    obtain ⟨steps, last, succeeds, ended⟩ := retries.perseveres failures image perseveredToo
    exact ⟨steps, last, succeeds, image, perseveredToo, relatedFinal, ended⟩
  diverges endless failures final persevered := by
    obtain ⟨image, perseveredToo, -⟩ := persevered.exists_of_lockStep lockStep related
    exact retries.diverges endless failures image perseveredToo

/-- A simulation of the persistent stepper by a machine makes running again and
again come to the same as a run of that machine. -/
theorem retriesAs_of_simulation {ρ υ : Type} [Source ρ] [Sink υ] {retried : Interpreter σ τ}
    {smooth : Interpreter ρ υ} {shown : Event -> Bool}
    (simulation : Stepper.Simulation (stepper retried.program).persistent
      (stepper smooth.program) shown)
    (related : simulation.Related ⟨retried.machine, []⟩ smooth.machine)
    {EndsAs : List IoFailure -> Machine σ τ -> Machine ρ υ -> Prop}
    (endsAs : ∀ {failures final last}, simulation.Related ⟨final, failures⟩ last ->
      final.finished retried.program = true -> EndsAs failures final last) :
    retried.RetriesAs smooth EndsAs := by
  have finished : ∀ {count persistence},
      (stepper retried.program).persistent.Succeeds ⟨retried.machine, []⟩ count persistence ->
        persistence.current.finished retried.program = true := by
    intro count persistence succeeds
    obtain ⟨events, ends⟩ := Stepper.succeeds_iff.mp succeeds
    exact ends.finished_of_none
  have perseveres : ∀ failures final, retried.Perseveres failures final ->
      ∃ steps last, smooth.Succeeds steps last ∧ EndsAs failures final last := by
    intro failures final perseveres
    obtain ⟨count, succeeds⟩ := perseveres_iff.mp perseveres
    obtain ⟨last, succeedsSmooth, relatedLast⟩ := simulation.succeeds_right succeeds related
    exact ⟨count, last, succeeds_iff.mpr succeedsSmooth, endsAs relatedLast (finished succeeds)⟩
  constructor
  · intro failure last fails
    -- The failure would have to show on the left, where none ever does.
    obtain ⟨final, failsLeft, -⟩ := simulation.fails_left (fails_iff.mp fails) related
    obtain ⟨count, events, ends⟩ := Stepper.fails_iff.mp failsLeft
    simpa using ends.failure?_persistent
  · intro steps last succeeds
    obtain ⟨⟨final, failures⟩, succeedsLeft, relatedFinal⟩ :=
      simulation.succeeds_left (succeeds_iff.mp succeeds) related
    have ended := endsAs relatedFinal (finished succeedsLeft)
    exact ⟨failures, final, perseveres_iff.mpr ⟨steps, succeedsLeft⟩, ended⟩
  · exact perseveres
  · intro endless failures final persevered
    obtain ⟨steps, last, ⟨fuel, ending, -⟩, -⟩ := perseveres failures final persevered
    rw [endless fuel] at ending
    simp at ending

end Interpreter

end Brainfuck
