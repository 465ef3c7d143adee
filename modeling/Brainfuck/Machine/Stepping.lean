import Brainfuck.Code.Program
import Brainfuck.Machine.State

/-!
# Stepping a program

A machine is a state with the place of the next instruction. A step executes
that instruction: a failing step leaves the place as it was, so that the next
step tries the same instruction again. A run steps until the program is
finished or a step fails. Runs are given fuel, the number of steps they may
take, because a program need not come to an end.
-/

namespace Brainfuck

/-- A state and the place of the next instruction. -/
@[ext]
structure Machine (σ τ : Type) where
  state : State σ τ
  now : Nat

/-- How a run ended. -/
inductive Ending where
  /-- The program is finished, after so many steps of this run. -/
  | finished (steps : Nat)
  /-- A step failed. -/
  | failed (failure : IoFailure)
  /-- The fuel was used up first. -/
  | exhausted
  deriving DecidableEq, Repr

namespace Ending

/-- What is logged about the end of a run. -/
def events : Ending -> List Event
  | .finished steps => [.finished steps]
  | .failed _ => []
  | .exhausted => []

/-- The same ending of a run that had taken `taken` steps before. -/
def afterSteps (taken : Nat) : Ending -> Ending
  | .finished steps => .finished (taken + steps)
  | .failed failure => .failed failure
  | .exhausted => .exhausted

@[simp] theorem afterSteps_afterSteps (earlier later : Nat) (ending : Ending) :
    (ending.afterSteps later).afterSteps earlier = ending.afterSteps (earlier + later) := by
  cases ending <;> simp [afterSteps, Nat.add_assoc]

end Ending

/-- What a run leaves behind, how it ended, and what its steps logged. -/
structure Run (σ τ : Type) where
  machine : Machine σ τ
  ending : Ending
  events : List Event

namespace Run

variable {σ τ : Type}

/-- All that a run logged: the events of its steps, and then its end. -/
def log (run : Run σ τ) : List Event :=
  run.events ++ run.ending.events

/-- The same run with a number of steps, and what they logged, in front of it. -/
def afterSteps (taken : Nat) (logged : List Event) (run : Run σ τ) : Run σ τ where
  machine := run.machine
  ending := run.ending.afterSteps taken
  events := logged ++ run.events

@[simp] theorem afterSteps_afterSteps (earlier later : Nat) (before between : List Event)
    (run : Run σ τ) :
    (run.afterSteps later between).afterSteps earlier before =
      run.afterSteps (earlier + later) (before ++ between) := by
  simp [afterSteps]

end Run

namespace Machine

/-- The machine at the first instruction. -/
def start {σ τ : Type} (tape : Tape) (source : σ) (sink : τ) : Machine σ τ where
  state := ⟨tape, source, sink⟩
  now := 0

/-- Whether there is no next instruction. -/
def finished {σ τ : Type} (program : Program) (machine : Machine σ τ) : Bool :=
  program.size ≤ machine.now

/-- A machine is finished exactly when no instruction stands at its place. -/
theorem finished_eq_true_iff {σ τ : Type} {program : Program} {machine : Machine σ τ} :
    machine.finished program = true ↔ program.get? machine.now = none := by
  unfold finished Program.get? Program.size
  rw [decide_eq_true_iff, Array.getElem?_eq_none_iff]

/-- A machine is not finished while there is an instruction at its place. -/
theorem unfinished_of_get? {σ τ : Type} {program : Program} {machine : Machine σ τ}
    {instruction : Instruction} (here : program.get? machine.now = some instruction) :
    machine.finished program = false := by
  rw [← Bool.not_eq_true, finished_eq_true_iff, here]
  simp

variable {σ τ : Type} [Source σ] [Sink τ]

/-- Attempts one command at the current place. -/
def execute (machine : Machine σ τ) (command : Command) : Attempt (Machine σ τ) :=
  match machine with
  | ⟨state, now⟩ =>
      match state.perform command with
      | ⟨next, none, events⟩ => ⟨⟨next, now + 1⟩, none, events⟩
      | ⟨next, some failure, events⟩ => ⟨⟨next, now⟩, some failure, events⟩

/-- Attempts the next instruction. An opening bracket on a zero cell goes on
after its partner; a closing bracket goes back to its partner. Nothing happens
when the program is finished. -/
def step (program : Program) (machine : Machine σ τ) : Attempt (Machine σ τ) :=
  match program.get? machine.now with
  | none => ⟨machine, none, []⟩
  | some (.command command) => machine.execute command
  | some (.loopBegin partner) =>
      if machine.state.tape.cell = 0 then
        ⟨⟨machine.state, partner + 1⟩, none, [.loopSkipped machine.now partner]⟩
      else
        ⟨⟨machine.state, machine.now + 1⟩, none, []⟩
  | some (.loopEnd partner) => ⟨⟨machine.state, partner⟩, none, []⟩

/-- A command that is performed takes the machine to the next place. -/
theorem step_of_performed {program : Program} {state next : State σ τ} {now : Nat}
    {command : Command} {events : List Event}
    (here : program.get? now = some (.command command))
    (performed : state.perform command = ⟨next, none, events⟩) :
    step program ⟨state, now⟩ = ⟨⟨next, now + 1⟩, none, events⟩ := by
  simp [step, here, execute, performed]

/-- A command that fails leaves the machine at its place. -/
theorem step_of_failed {program : Program} {state next : State σ τ} {now : Nat}
    {command : Command} {failure : IoFailure} {events : List Event}
    (here : program.get? now = some (.command command))
    (performed : state.perform command = ⟨next, some failure, events⟩) :
    step program ⟨state, now⟩ = ⟨⟨next, now⟩, some failure, events⟩ := by
  simp [step, here, execute, performed]

/-- A loop is skipped on a zero cell. -/
theorem step_of_zero {program : Program} {state : State σ τ} {now partner : Nat}
    (here : program.get? now = some (.loopBegin partner)) (zero : state.tape.cell = 0) :
    step program ⟨state, now⟩ = ⟨⟨state, partner + 1⟩, none, [.loopSkipped now partner]⟩ := by
  simp [step, here, zero]

/-- A loop is entered on any other cell. -/
theorem step_of_nonzero {program : Program} {state : State σ τ} {now partner : Nat}
    (here : program.get? now = some (.loopBegin partner)) (nonzero : state.tape.cell ≠ 0) :
    step program ⟨state, now⟩ = ⟨⟨state, now + 1⟩, none, []⟩ := by
  simp [step, here, nonzero]

/-- The end of a loop leads back to its beginning. -/
theorem step_of_loopEnd {program : Program} {state : State σ τ} {now partner : Nat}
    (here : program.get? now = some (.loopEnd partner)) :
    step program ⟨state, now⟩ = ⟨⟨state, partner⟩, none, []⟩ := by
  simp [step, here]

/-- Attempts a number of steps, up to the first failure; `logged` is what was
logged before, the latest first. -/
def stepsFrom (program : Program) (logged : List Event) :
    Nat -> Machine σ τ -> Attempt (Machine σ τ)
  | 0, machine => ⟨machine, none, logged.reverse⟩
  | count + 1, machine =>
      match machine.step program with
      | ⟨next, none, events⟩ => stepsFrom program (events.reverseAux logged) count next
      | ⟨next, some failure, events⟩ =>
          ⟨next, some failure, (events.reverseAux logged).reverse⟩

/-- Attempts a number of steps, up to the first failure. -/
def steps (program : Program) (count : Nat) (machine : Machine σ τ) :
    Attempt (Machine σ τ) :=
  stepsFrom program [] count machine

/-- What was logged before stands in front of what the steps log. -/
theorem stepsFrom_eq (program : Program) (logged : List Event) (count : Nat)
    (machine : Machine σ τ) :
    stepsFrom program logged count machine =
      ⟨(steps program count machine).after, (steps program count machine).failure?,
        logged.reverse ++ (steps program count machine).events⟩ := by
  unfold steps
  induction count generalizing logged machine with
  | zero => simp [stepsFrom]
  | succ count inductionHypothesis =>
      simp only [stepsFrom]
      rcases machine.step program with ⟨next, _ | failure, events⟩
      · dsimp only
        rw [inductionHypothesis, inductionHypothesis (events.reverseAux [])]
        simp [List.reverseAux_eq]
      · simp [List.reverseAux_eq]

/-- Further steps go on from where a successful step led. -/
theorem steps_of_step {program : Program} {count : Nat} {machine next : Machine σ τ}
    {events : List Event} (stepped : machine.step program = ⟨next, none, events⟩) :
    steps program (count + 1) machine =
      ⟨(steps program count next).after, (steps program count next).failure?,
        events ++ (steps program count next).events⟩ := by
  rw [steps, stepsFrom, stepped]
  simp [stepsFrom_eq, List.reverseAux_eq]

/-- A step that fails is the last one. -/
theorem steps_of_failure {program : Program} {count : Nat} {machine next : Machine σ τ}
    {failure : IoFailure} {events : List Event}
    (stepped : machine.step program = ⟨next, some failure, events⟩) :
    steps program (count + 1) machine = ⟨next, some failure, events⟩ := by
  rw [steps, stepsFrom, stepped]
  simp [List.reverseAux_eq]

/-- Runs a machine that has taken `taken` steps so far; `logged` is what they
logged, the latest first. -/
def runFrom (program : Program) (taken : Nat) (logged : List Event) (fuel : Nat)
    (machine : Machine σ τ) : Run σ τ :=
  if machine.finished program then
    ⟨machine, .finished taken, logged.reverse⟩
  else
    match fuel with
    | 0 => ⟨machine, .exhausted, logged.reverse⟩
    | fuel + 1 =>
        match machine.step program with
        | ⟨next, none, events⟩ =>
            runFrom program (taken + 1) (events.reverseAux logged) fuel next
        | ⟨next, some failure, events⟩ =>
            ⟨next, .failed failure, (events.reverseAux logged).reverse⟩

/-- Runs a machine until its program is finished, a step fails, or the fuel is
used up. -/
def run (program : Program) (fuel : Nat) (machine : Machine σ τ) : Run σ τ :=
  runFrom program 0 [] fuel machine

/-- The count and the log that a run starts with stand in front of its own. -/
theorem runFrom_eq (program : Program) (taken : Nat) (logged : List Event) (fuel : Nat)
    (machine : Machine σ τ) :
    runFrom program taken logged fuel machine =
      (run program fuel machine).afterSteps taken logged.reverse := by
  unfold run
  induction fuel generalizing taken logged machine with
  | zero =>
      unfold runFrom
      split <;> simp [Run.afterSteps, Ending.afterSteps]
  | succ fuel inductionHypothesis =>
      unfold runFrom
      split
      · simp [Run.afterSteps, Ending.afterSteps]
      · dsimp only
        split
        · rw [inductionHypothesis, inductionHypothesis (0 + 1)]
          simp [List.reverseAux_eq]
        · simp [Run.afterSteps, Ending.afterSteps, List.reverseAux_eq]

/-- A run of a finished machine takes no step. -/
theorem run_of_finished {program : Program} {fuel : Nat} {machine : Machine σ τ}
    (finished : machine.finished program = true) :
    run program fuel machine = ⟨machine, .finished 0, []⟩ := by
  unfold run runFrom
  simp [finished]

/-- A run without fuel of a machine that is not finished is exhausted at once. -/
theorem run_zero {program : Program} {machine : Machine σ τ}
    (unfinished : machine.finished program = false) :
    run program 0 machine = ⟨machine, .exhausted, []⟩ := by
  unfold run runFrom
  simp [unfinished]

/-- A run goes on from where a successful step led. -/
theorem run_of_step {program : Program} {fuel : Nat} {machine next : Machine σ τ}
    {events : List Event} (unfinished : machine.finished program = false)
    (stepped : machine.step program = ⟨next, none, events⟩) :
    run program (fuel + 1) machine = (run program fuel next).afterSteps 1 events := by
  rw [run, runFrom]
  simp [unfinished, stepped, runFrom_eq, List.reverseAux_eq]

/-- A run ends with the first step that fails. -/
theorem run_of_failure {program : Program} {fuel : Nat} {machine next : Machine σ τ}
    {failure : IoFailure} {events : List Event}
    (unfinished : machine.finished program = false)
    (stepped : machine.step program = ⟨next, some failure, events⟩) :
    run program (fuel + 1) machine = ⟨next, .failed failure, events⟩ := by
  rw [run, runFrom]
  simp [unfinished, stepped, List.reverseAux_eq]

/-- More fuel does not change a run that has come to its end. -/
theorem run_eq_of_le {program : Program} {fuel more : Nat} {machine : Machine σ τ}
    (settled : (run program fuel machine).ending ≠ .exhausted) (enough : fuel ≤ more) :
    run program more machine = run program fuel machine := by
  induction fuel generalizing machine more with
  | zero =>
      cases unfinished : machine.finished program with
      | true => rw [run_of_finished unfinished, run_of_finished unfinished]
      | false => exact absurd (by rw [run_zero unfinished]) settled
  | succ fuel inductionHypothesis =>
      cases unfinished : machine.finished program with
      | true => rw [run_of_finished unfinished, run_of_finished unfinished]
      | false =>
          obtain ⟨more, rfl⟩ : ∃ fewer, more = fewer + 1 := ⟨more - 1, by omega⟩
          rcases stepped : machine.step program with ⟨next, _ | failure, events⟩
          · rw [run_of_step unfinished stepped] at settled ⊢
            rw [run_of_step unfinished stepped]
            rw [inductionHypothesis _ (Nat.le_of_succ_le_succ enough)]
            intro exhausted
            exact settled (by simp [Run.afterSteps, exhausted, Ending.afterSteps])
          · rw [run_of_failure unfinished stepped, run_of_failure unfinished stepped]

end Machine

end Brainfuck
