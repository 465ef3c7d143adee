import Brainfuck.Code.Block
import Brainfuck.Machine.State

/-!
# Evaluation of blocks

The meaning of a block without any place in a program. A comment does nothing. A
loop on a zero cell does nothing; on any other cell it does its body and then
the loop again. A command that fails aborts the whole block in the state it
leaves. A block that loops forever from some state has no evaluation there.
-/

namespace Brainfuck

variable {σ τ : Type} [Source σ] [Sink τ]

/-- Evaluating a block from one state ends in another, having failed or not. -/
inductive Evaluates : Block -> State σ τ -> Option IoFailure -> State σ τ -> Prop where
  | done {state : State σ τ} : Evaluates .done state none state
  | comment {character : Char} {meaningless : Symbol.ofChar? character = none}
      {rest : Block} {state final : State σ τ} {failure? : Option IoFailure}
      (evaluatesRest : Evaluates rest state failure? final) :
      Evaluates (.comment character meaningless rest) state failure? final
  | command {action : Command} {rest : Block} {state next final : State σ τ}
      {events : List Event} {failure? : Option IoFailure}
      (performed : state.perform action = ⟨next, none, events⟩)
      (evaluatesRest : Evaluates rest next failure? final) :
      Evaluates (.command action rest) state failure? final
  | commandFails {action : Command} {rest : Block} {state final : State σ τ}
      {events : List Event} {failure : IoFailure}
      (performed : state.perform action = ⟨final, some failure, events⟩) :
      Evaluates (.command action rest) state (some failure) final
  | loopSkipped {body rest : Block} {state final : State σ τ}
      {failure? : Option IoFailure} (zero : state.tape.cell = 0)
      (evaluatesRest : Evaluates rest state failure? final) :
      Evaluates (.loop body rest) state failure? final
  | loopAgain {body rest : Block} {state next final : State σ τ}
      {failure? : Option IoFailure} (nonzero : state.tape.cell ≠ 0)
      (evaluatesBody : Evaluates body state none next)
      (evaluatesAgain : Evaluates (.loop body rest) next failure? final) :
      Evaluates (.loop body rest) state failure? final
  | loopFails {body rest : Block} {state final : State σ τ} {failure : IoFailure}
      (nonzero : state.tape.cell ≠ 0)
      (evaluatesBody : Evaluates body state (some failure) final) :
      Evaluates (.loop body rest) state (some failure) final

/-- A block has at most one evaluation from a state. -/
theorem Evaluates.deterministic {block : Block} {state left right : State σ τ}
    {leftFailure? rightFailure? : Option IoFailure}
    (first : Evaluates block state leftFailure? left)
    (second : Evaluates block state rightFailure? right) :
    leftFailure? = rightFailure? ∧ left = right := by
  induction first generalizing rightFailure? right with
  | done =>
      cases second
      exact ⟨rfl, rfl⟩
  | comment _ inductionHypothesis =>
      cases second with
      | comment evaluatesRest => exact inductionHypothesis evaluatesRest
  | command performed _ inductionHypothesis =>
      cases second with
      | command performedAgain evaluatesRest =>
          obtain ⟨rfl, -⟩ := Attempt.mk.inj (performed.symm.trans performedAgain)
          exact inductionHypothesis evaluatesRest
      | commandFails performedAgain => simp [performed] at performedAgain
  | commandFails performed =>
      cases second with
      | command performedAgain => simp [performed] at performedAgain
      | commandFails performedAgain =>
          obtain ⟨rfl, sameFailure, -⟩ := Attempt.mk.inj (performed.symm.trans performedAgain)
          exact ⟨sameFailure, rfl⟩
  | loopSkipped zero _ inductionHypothesis =>
      cases second with
      | loopSkipped _ evaluatesRest => exact inductionHypothesis evaluatesRest
      | loopAgain nonzero => exact absurd zero nonzero
      | loopFails nonzero => exact absurd zero nonzero
  | loopAgain nonzero _ _ bodyHypothesis againHypothesis =>
      cases second with
      | loopSkipped zero => exact absurd zero nonzero
      | loopAgain _ evaluatesBody evaluatesAgain =>
          obtain ⟨-, rfl⟩ := bodyHypothesis evaluatesBody
          exact againHypothesis evaluatesAgain
      | loopFails _ evaluatesBody => exact absurd (bodyHypothesis evaluatesBody).1 (by simp)
  | loopFails nonzero _ bodyHypothesis =>
      cases second with
      | loopSkipped zero => exact absurd zero nonzero
      | loopAgain _ evaluatesBody => exact absurd (bodyHypothesis evaluatesBody).1 (by simp)
      | loopFails _ evaluatesBody => exact bodyHypothesis evaluatesBody

end Brainfuck
