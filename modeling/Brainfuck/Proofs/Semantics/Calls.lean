import Brainfuck.Proofs.Semantics.Tally

/-!
# Every sequence of calls

A run is so many attempts at a step, so whatever an interpreter is asked for, its machine
stands at one of the moments that single attempts lead to:
`Interpreter.exists_after_calls`. Hence what each attempt keeps true stays true under all
calls. What two machines in lock step answer is the same for all calls as well:
`Machine.callAll_alike`.
-/

namespace Brainfuck

/-- The answer of a machine that has nothing left to do. -/
def Call.idleReply : Call -> Reply
  | .step => .stepped none []
  | .run _ => .ran (.finished 0) [.finished 0]

namespace Machine

variable {σ τ : Type} [Source σ] [Sink τ] {program : Program} {machine : Machine σ τ}

/-- A finished machine answers a call without doing anything. -/
theorem call_of_finished (finished : machine.finished program = true) (call : Call) :
    machine.call program call = (call.idleReply, machine) := by
  cases call with
  | step =>
      have behind := finished_eq_true_iff.mp finished
      simp only [Machine.call, step, behind, Call.idleReply]
  | run fuel =>
      rw [Machine.call, run_of_finished finished]
      rfl

/-- A finished machine answers all calls without doing anything. -/
theorem callAll_of_finished (finished : machine.finished program = true) (calls : List Call) :
    callAll program calls machine = (calls.map Call.idleReply, machine) := by
  induction calls with
  | nil => rfl
  | cons call rest inductionHypothesis =>
      rw [callAll_cons, call_of_finished finished, inductionHypothesis]
      rfl

variable {ρ υ : Type} [Source ρ] [Sink υ] {Related : Machine σ τ -> Machine ρ υ -> Prop}
  {right : Program} {image : Machine ρ υ}

/-- Machines in lock step answer a call alike and stay related. -/
theorem call_alike (lockStep : Stepper.LockStep (stepper program) (stepper right) Related)
    (related : Related machine image) (call : Call) :
    (machine.call program call).1 = (image.call right call).1 ∧
      Related (machine.call program call).2 (image.call right call).2 := by
  cases call with
  | step =>
      obtain ⟨sameFailure, sameEvents, relatedNext⟩ := lockStep.alike related
      exact ⟨congr (congrArg Reply.stepped sameFailure) sameEvents, relatedNext⟩
  | run fuel =>
      obtain ⟨sameEnding, sameEvents, relatedNext⟩ := lockStep.run fuel related
      simp only [Machine.call, run_eq_stepper, Run.log, sameEnding, sameEvents]
      exact ⟨trivial, relatedNext⟩

/-- Machines in lock step answer all calls alike and stay related. -/
theorem callAll_alike (lockStep : Stepper.LockStep (stepper program) (stepper right) Related)
    (related : Related machine image) (calls : List Call) :
    (callAll program calls machine).1 = (callAll right calls image).1 ∧
      Related (callAll program calls machine).2 (callAll right calls image).2 := by
  induction calls generalizing machine image with
  | nil => exact ⟨rfl, related⟩
  | cons call rest inductionHypothesis =>
      obtain ⟨sameReply, relatedNext⟩ := call_alike lockStep related call
      obtain ⟨sameReplies, relatedLast⟩ := inductionHypothesis relatedNext
      rw [callAll_cons, callAll_cons, sameReply, sameReplies]
      exact ⟨rfl, relatedLast⟩

end Machine

namespace Interpreter

variable {σ ρ τ υ : Type} [Source σ] [Source ρ] [Sink τ] [Sink υ]

/-- Whatever an interpreter is asked for, its machine stands at one of its moments. -/
theorem exists_after_calls (interpreter : Interpreter σ τ) (calls : List Call) :
    ∃ count, interpreter.afterCalls calls = interpreter.after count := by
  obtain ⟨count, leads, -⟩ :=
    Machine.exists_tally_callAll interpreter.program calls interpreter.machine
  exact ⟨count, leads⟩

/-- Two interpreters that answer all calls alike, after which their machines are
related. -/
structure AnswersAlike (left : Interpreter σ τ) (right : Interpreter ρ υ)
    (Related : Machine σ τ -> Machine ρ υ -> Prop) : Prop where
  replies : ∀ calls, left.replies calls = right.replies calls
  machines : ∀ calls, Related (left.afterCalls calls) (right.afterCalls calls)

/-- Interpreters whose steppers go in lock step answer all calls alike. -/
theorem answersAlike_of_lockStep {left : Interpreter σ τ} {right : Interpreter ρ υ}
    {Related : Machine σ τ -> Machine ρ υ -> Prop}
    (lockStep : Stepper.LockStep (Machine.stepper left.program) (Machine.stepper right.program)
      Related)
    (related : Related left.machine right.machine) : left.AnswersAlike right Related where
  replies calls := (Machine.callAll_alike lockStep related calls).1
  machines calls := (Machine.callAll_alike lockStep related calls).2

end Interpreter

end Brainfuck
