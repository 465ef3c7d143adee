import Brainfuck.Proofs.Semantics.Calls

/-!
# Schedules of calls

Steps and runs can be asked for in any order, and one can go on asking after failures; the
interpreter makes the same attempts all the same, and only how many of them it makes at a
time depends on the calls. The failures that it answers with are those of the attempts, and
so two schedules of calls that reach the end of the program come to the same
(`Machine.attempts_to_end`).
-/

namespace Brainfuck

/-- The failure that an answer tells of. -/
def Reply.failure? : Reply -> Option IoFailure
  | .stepped failure? _ => failure?
  | .ran (.failed failure) _ => some failure
  | .ran _ _ => none

variable {σ τ : Type} [Source σ] [Sink τ]

namespace Machine

variable {program : Program} {machine : Machine σ τ}

/-- The failure that a call is answered with, if any, is the one that it comes to. -/
theorem failures_callTally (program : Program) (call : Call) (machine : Machine σ τ) :
    (machine.callTally program call).failures =
      (machine.call program call).1.failure?.toList := by
  cases call with
  | step =>
      cases finished : (stepper program).finished machine with
      | true =>
          have nothing : machine.callTally program .step = .nothing := if_pos finished
          rw [call_of_finished finished, nothing]
          rfl
      | false =>
          rw [callTally, Stepper.tallyOnce_of_unfinished finished, Tally.failures_single]
          rfl
  | run fuel =>
      have stepwise := stepwise_run program fuel machine
      rw [callTally, call]
      generalize (stepper program).runTally fuel machine = tally at stepwise
      generalize run program fuel machine = done at stepwise
      rcases done with ⟨final, ending, events⟩
      cases stepwise <;> rfl

/-- The failures that calls are answered with are those that they come to. -/
theorem failures_callsTally (program : Program) (calls : List Call) (machine : Machine σ τ) :
    (callsTally program calls machine).failures =
      (callAll program calls machine).1.filterMap Reply.failure? := by
  induction calls generalizing machine with
  | nil => rfl
  | cons call rest inductionHypothesis =>
      rw [callsTally, Tally.andThen, failures_callTally, inductionHypothesis, callAll_cons,
        List.filterMap_cons]
      cases (machine.call program call).1.failure? <;> rfl

/-- All numbers of attempts that lead to the end of the program come to the same. -/
theorem attempts_to_end {first second : Nat}
    (finishedFirst : ((stepper program).attempts first machine).finished program = true)
    (finishedSecond : ((stepper program).attempts second machine).finished program = true) :
    (stepper program).attempts first machine = (stepper program).attempts second machine ∧
      (stepper program).tally first machine = (stepper program).tally second machine := by
  have onward {earlier : Nat} (more : Nat)
      (finished : (stepper program).finished ((stepper program).attempts earlier machine) = true) :
      (stepper program).attempts (earlier + more) machine =
          (stepper program).attempts earlier machine ∧
        (stepper program).tally (earlier + more) machine =
          (stepper program).tally earlier machine := by
    have stays := congrArg Prod.snd (call_of_finished finished .step)
    obtain ⟨nothing, same⟩ := Stepper.tally_of_finished stays finished more
    rw [Stepper.attempts_add, Stepper.tally_add, nothing, Tally.andThen_nothing]
    exact ⟨same, rfl⟩
  rcases Nat.le_total first second with before | before
  · obtain ⟨more, rfl⟩ := Nat.exists_eq_add_of_le before
    exact ⟨(onward more finishedFirst).1.symm, (onward more finishedFirst).2.symm⟩
  · obtain ⟨more, rfl⟩ := Nat.exists_eq_add_of_le before
    exact onward more finishedSecond

end Machine

namespace Interpreter

/-- What calls in a row come to. -/
def callsTally (interpreter : Interpreter σ τ) (calls : List Call) : Tally :=
  Machine.callsTally interpreter.program calls interpreter.machine

/-- How an interpreter is driven makes no difference. Calls in a row leave the machine and
come to what some number of single attempts does, and are answered with the failures of
these; every run takes its steps one at a time; every step that fails does so in its place;
and all calls that lead to the end of the program leave the same machine and come to the
same. -/
structure DrivenStepwise (interpreter : Interpreter σ τ) : Prop where
  calls : ∀ calls, ∃ count, interpreter.afterCalls calls = interpreter.after count ∧
    interpreter.callsTally calls =
      (Machine.stepper interpreter.program).tally count interpreter.machine
  failures : ∀ calls,
    (interpreter.replies calls).filterMap Reply.failure? = (interpreter.callsTally calls).failures
  runs : ∀ calls fuel, (interpreter.afterCalls calls).Stepwise interpreter.program
    ((interpreter.afterCalls calls).run interpreter.program fuel).ending
    ((interpreter.afterCalls calls).run interpreter.program fuel).machine
    ((interpreter.afterCalls calls).callTally interpreter.program (.run fuel))
  steps : ∀ calls failure,
    ((interpreter.afterCalls calls).step interpreter.program).failure? = some failure ->
    (interpreter.afterCalls calls).FailsInPlace interpreter.program failure
  ends : ∀ first second,
    (interpreter.afterCalls first).finished interpreter.program = true ->
    (interpreter.afterCalls second).finished interpreter.program = true ->
    interpreter.afterCalls first = interpreter.afterCalls second ∧
      (interpreter.replies first).filterMap Reply.failure? =
        (interpreter.replies second).filterMap Reply.failure? ∧
      (interpreter.callsTally first).steps = (interpreter.callsTally second).steps

/-- Every interpreter is driven stepwise. -/
theorem drivenStepwise (interpreter : Interpreter σ τ) : interpreter.DrivenStepwise where
  calls calls := Machine.exists_tally_callAll interpreter.program calls interpreter.machine
  failures calls :=
    (Machine.failures_callsTally interpreter.program calls interpreter.machine).symm
  runs calls fuel := Machine.stepwise_run interpreter.program fuel (interpreter.afterCalls calls)
  steps _ _ fails := Machine.failsInPlace_of_failure fails
  ends first second finishedFirst finishedSecond := by
    obtain ⟨count, leads, comesTo⟩ :=
      Machine.exists_tally_callAll interpreter.program first interpreter.machine
    obtain ⟨other, leadsOther, comesToOther⟩ :=
      Machine.exists_tally_callAll interpreter.program second interpreter.machine
    rw [afterCalls, leads] at finishedFirst
    rw [afterCalls, leadsOther] at finishedSecond
    obtain ⟨sameMachine, sameTally⟩ := Machine.attempts_to_end finishedFirst finishedSecond
    have same : interpreter.callsTally first = interpreter.callsTally second := by
      rw [callsTally, callsTally, comesTo, comesToOther, sameTally]
    refine ⟨?_, ?_, congrArg Tally.steps same⟩
    · rw [afterCalls, afterCalls, leads, leadsOther, sameMachine]
    · have failures := congrArg Tally.failures same
      rwa [callsTally, callsTally, Machine.failures_callsTally, Machine.failures_callsTally]
        at failures

end Interpreter

/-- For every balanced code, every tape, every source and every sink, how the interpreter is
driven makes no difference. -/
theorem build_drivenStepwise {code : List Char} (balanced : Balanced code) (tape : Tape)
    (source : σ) (sink : τ) :
    ∃ interpreter, Interpreter.build code tape source sink = .ok interpreter ∧
      interpreter.DrivenStepwise := by
  obtain ⟨block, rfl⟩ := balanced.exists_block
  exact ⟨_, Interpreter.build_of_parse block.parse_code tape source sink,
    Interpreter.drivenStepwise _⟩

/-- A source that fails twice is asked by two runs and two steps, or by five steps and two
runs. -/
theorem build_drivenStepwise_retrying :
    Balanced ",.".toList ∧ ∃ interpreter : Interpreter CellScript Buffer,
      Interpreter.build ",.".toList (Tape.blank 1 (by decide))
          (CellScript.mk [.error .writeZero, .error ⟨.other, ""⟩, .ok 65]) Buffer.empty =
        .ok interpreter ∧
      (interpreter.afterCalls [.run 9, .run 9, .step, .step]).finished interpreter.program = true ∧
      (interpreter.afterCalls [.step, .step, .step, .step, .step, .run 0, .run 9]).finished
        interpreter.program = true ∧
      (interpreter.afterCalls [.run 9, .run 9, .step, .step]) =
        (interpreter.afterCalls [.step, .step, .step, .step, .step, .run 0, .run 9]) ∧
      (interpreter.replies [.run 9, .run 9, .step, .step]).filterMap Reply.failure? =
        [.writeZero, ⟨.other, ""⟩] := by
  have balanced : Balanced ",.".toList := by decide
  obtain ⟨interpreter, built, driven⟩ := build_drivenStepwise balanced (Tape.blank 1 (by decide))
    (CellScript.mk [.error .writeZero, .error ⟨.other, ""⟩, .ok 65]) Buffer.empty
  have parsed : Interpreter.build ",.".toList (Tape.blank 1 (by decide))
      (CellScript.mk [.error .writeZero, .error ⟨.other, ""⟩, .ok 65]) Buffer.empty = .ok _ := rfl
  obtain rfl := Except.ok.inj (parsed.symm.trans built)
  refine ⟨balanced, _, built, ?first, ?second, (driven.ends _ _ ?first ?second).1, ?failures⟩
  case first => decide
  case second => decide
  case failures => decide

end Brainfuck
