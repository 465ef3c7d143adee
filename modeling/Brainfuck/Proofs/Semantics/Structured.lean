import Brainfuck.Machine.Interpreter
import Brainfuck.Proofs.Code.Layout
import Brainfuck.Proofs.Code.Tree
import Brainfuck.Semantics.Evaluation
import Brainfuck.Semantics.Stepper

/-!
# Programs run as their blocks evaluate

A machine knows only places and jumps, a block only its own structure. Where a
program carries a block, an evaluation of that block is a path of the machine
from the block's first place to the place behind it, or ends in the failure of
the evaluation: induction on the evaluation. Conversely a machine that comes to
an end from that place has evaluated the block on the way: induction on the
number of steps, since the loop is entered again after its body.
-/

namespace Brainfuck

variable {σ τ : Type} [Source σ] [Sink τ]

namespace Machine

/-- What executing a block from its first place comes to: the place behind the
block, or the end of the stepping with a failure. -/
def Completes (program : Program) (machine : Machine σ τ) (behind : Nat) :
    Option IoFailure -> State σ τ -> Prop
  | none, final => ∃ count events,
      (stepper program).Path Stepper.anywhere machine count events ⟨final, behind⟩
  | some failure, final => ∃ count events now,
      (stepper program).Ends machine count events (some failure) ⟨final, now⟩

variable {program : Program}

/-- A path leads to whatever is completed from its end. -/
theorem Completes.after_path {machine middle : Machine σ τ} {behind count : Nat}
    {events : List Event} {failure? : Option IoFailure} {final : State σ τ}
    (path : (stepper program).Path Stepper.anywhere machine count events middle)
    (completes : Completes program middle behind failure? final) :
    Completes program machine behind failure? final := by
  cases failure? with
  | none =>
      obtain ⟨later, logged, onward⟩ := completes
      exact ⟨_, _, path.trans onward⟩
  | some failure =>
      obtain ⟨later, logged, now, ends⟩ := completes
      exact ⟨_, _, now, path.ends ends⟩

/-- A successful step leads to whatever is completed after it. -/
theorem Completes.after_step {machine next : Machine σ τ} {instruction : Instruction}
    {behind : Nat} {events : List Event} {failure? : Option IoFailure} {final : State σ τ}
    (here : program.get? machine.now = some instruction)
    (stepped : machine.step program = ⟨next, none, events⟩)
    (completes : Completes program next behind failure? final) :
    Completes program machine behind failure? final :=
  completes.after_path (.single .intro (unfinished_of_get? here) stepped)

end Machine

open Machine in
/-- Where a program carries a block, its machine does what the block evaluates
to. -/
theorem Evaluates.completes {block : Block} {state final : State σ τ}
    {failure? : Option IoFailure} (evaluates : Evaluates block state failure? final)
    {program : Program} {place : Nat} (carries : program.Carries place block) :
    Completes program ⟨state, place⟩ (place + block.size) failure? final := by
  induction evaluates generalizing place with
  | done => exact ⟨0, [], .refl⟩
  | comment _ inductionHypothesis => exact inductionHypothesis carries
  | @command action rest state next final events failure? performed _ inductionHypothesis =>
      obtain ⟨here, carriesRest⟩ := Program.carries_command_iff.mp carries
      have completesRest := inductionHypothesis carriesRest
      rw [show place + 1 + rest.size = place + (rest.size + 1) by omega] at completesRest
      exact completesRest.after_step here (step_of_performed here performed)
  | commandFails performed =>
      obtain ⟨here, -⟩ := Program.carries_command_iff.mp carries
      have stepped := step_of_failed here performed
      exact ⟨0, _, place, .failed (unfinished_of_get? here) stepped⟩
  | @loopSkipped body rest state final failure? zero _ inductionHypothesis =>
      obtain ⟨here, -, -, carriesRest⟩ := Program.carries_loop_iff.mp carries
      have completesRest := inductionHypothesis carriesRest
      rw [show place + body.size + 2 + rest.size = place + (body.size + rest.size + 2) by
        omega] at completesRest
      exact completesRest.after_step here (step_of_zero here zero)
  | @loopAgain body rest state next final failure? nonzero _ _ bodyHypothesis againHypothesis =>
      obtain ⟨here, carriesBody, closing, -⟩ := Program.carries_loop_iff.mp carries
      obtain ⟨count, events, path⟩ := bodyHypothesis carriesBody
      rw [show place + 1 + body.size = place + body.size + 1 by omega] at path
      have back : Completes program ⟨next, place + body.size + 1⟩ _ failure? final :=
        (againHypothesis carries).after_step closing (step_of_loopEnd closing)
      exact (back.after_path path).after_step here (step_of_nonzero here nonzero)
  | loopFails nonzero _ bodyHypothesis =>
      obtain ⟨here, carriesBody, -, -⟩ := Program.carries_loop_iff.mp carries
      obtain ⟨count, events, now, ends⟩ := bodyHypothesis carriesBody
      have completesBody : Completes program ⟨_, place + 1⟩ 0 (some _) _ :=
        ⟨count, events, now, ends⟩
      obtain ⟨all, logged, last, endsAll⟩ :=
        completesBody.after_step here (step_of_nonzero here nonzero)
      exact ⟨all, logged, last, endsAll⟩

/-- A stepping that ends, seen from the first place of a block: either the block
fails and that is the end, or it evaluates and the stepping goes on behind it
with no more steps than before. -/
def EvaluatesOnTheWay (program : Program) (block : Block) (state : State σ τ) (behind count : Nat)
    (failure? : Option IoFailure) (final : Machine σ τ) : Prop :=
  (∃ failure, failure? = some failure ∧ Evaluates block state (some failure) final.state) ∨
    ∃ next fewer later, fewer ≤ count ∧ Evaluates block state none next ∧
      (Machine.stepper program).Ends ⟨next, behind⟩ fewer later failure? final

/-- What is evaluated on the way also is if the block is part of another one. -/
theorem EvaluatesOnTheWay.within {program : Program} {block outer : Block}
    {state before : State σ τ} {behind fewer count : Nat} {failure? : Option IoFailure}
    {final : Machine σ τ}
    (onTheWay : EvaluatesOnTheWay program block state behind fewer failure? final)
    (enclose : forall {failure? final}, Evaluates block state failure? final ->
      Evaluates outer before failure? final) (atMost : fewer ≤ count) :
    EvaluatesOnTheWay program outer before behind count failure? final := by
  rcases onTheWay with ⟨failure, failed, evaluates⟩ | ⟨next, fewest, later, least, evaluates, ends⟩
  · exact .inl ⟨failure, failed, enclose evaluates⟩
  · exact .inr ⟨next, fewest, later, Nat.le_trans least atMost, enclose evaluates, ends⟩

open Machine in
/-- Where a program carries a block, a machine that comes to an end from its
first place evaluates the block on the way. -/
theorem evaluatesOnTheWay_of_ends {program : Program} {block : Block} {place : Nat}
    (carries : program.Carries place block) {state : State σ τ} {count : Nat}
    {events : List Event} {failure? : Option IoFailure} {final : Machine σ τ}
    (ends : (stepper program).Ends ⟨state, place⟩ count events failure? final) :
    EvaluatesOnTheWay program block state (place + block.size) count failure? final := by
  -- A loop comes back to itself with fewer steps to go; only comments take no step at all.
  induction count using Nat.strongRecOn generalizing block place state events with
  | ind count fewerSteps =>
  induction block generalizing place with
  | done => exact .inr ⟨state, count, events, Nat.le_refl count, .done, ends⟩
  | comment character meaningless rest inductionHypothesis =>
      exact (inductionHypothesis carries ends).within .comment (Nat.le_refl count)
  | command action rest _ =>
      obtain ⟨here, carriesRest⟩ := Program.carries_command_iff.mp carries
      rcases performed : state.perform action with ⟨next, _ | failure, logged⟩
      · obtain ⟨fewer, later, rfl, onward⟩ :=
          ends.of_step (unfinished_of_get? here) (step_of_performed here performed)
        have less : fewer < 1 + fewer := by omega
        have onTheWay := fewerSteps fewer less carriesRest onward
        rw [show place + 1 + rest.size = place + (rest.size + 1) by omega] at onTheWay
        exact onTheWay.within (.command performed) (Nat.le_of_lt less)
      · obtain ⟨failed, rfl⟩ :=
          ends.of_failure (unfinished_of_get? here) (step_of_failed here performed)
        exact .inl ⟨failure, failed, .commandFails performed⟩
  | loop body rest _ _ =>
      obtain ⟨here, carriesBody, closing, carriesRest⟩ := Program.carries_loop_iff.mp carries
      by_cases zero : state.tape.cell = 0
      · obtain ⟨fewer, later, rfl, onward⟩ :=
          ends.of_step (unfinished_of_get? here) (step_of_zero here zero)
        have less : fewer < 1 + fewer := by omega
        have onTheWay := fewerSteps fewer less carriesRest onward
        rw [show place + body.size + 2 + rest.size = place + (body.size + rest.size + 2) by
          omega] at onTheWay
        exact onTheWay.within (.loopSkipped zero) (Nat.le_of_lt less)
      · obtain ⟨fewer, later, rfl, onward⟩ :=
          ends.of_step (unfinished_of_get? here) (step_of_nonzero here zero)
        have less : fewer < 1 + fewer := by omega
        rcases fewerSteps fewer less carriesBody onward with ⟨failure, failed, evaluates⟩ |
          ⟨next, remaining, logged, atMost, evaluates, atClosing⟩
        · exact .inl ⟨failure, failed, .loopFails zero evaluates⟩
        · rw [show place + 1 + body.size = place + body.size + 1 by omega] at atClosing
          obtain ⟨fewest, last, rfl, back⟩ :=
            atClosing.of_step (unfinished_of_get? closing) (step_of_loopEnd closing)
          have least : fewest < 1 + fewer := by
            have : 1 + fewest ≤ fewer := atMost
            omega
          exact (fewerSteps fewest least carries back).within (.loopAgain zero evaluates)
            (Nat.le_of_lt least)

open Machine in
/-- The stepping of a machine through the program of a block ends as the block
evaluates. -/
theorem evaluates_iff_ends {block : Block} {state final : State σ τ}
    {failure? : Option IoFailure} :
    Evaluates block state failure? final ↔
      ∃ count events now, (stepper (Program.ofBlock block)).Ends ⟨state, 0⟩ count events failure?
        ⟨final, now⟩ := by
  have carries := Program.carries_ofBlock block
  have finished (next : State σ τ) :
      (stepper (Program.ofBlock block)).finished ⟨next, 0 + block.size⟩ = true := by
    simp [stepper, Machine.finished, Program.size, Program.ofBlock]
  constructor
  · intro evaluates
    have completes := evaluates.completes carries
    cases failure? with
    | none =>
        obtain ⟨count, events, path⟩ := completes
        exact ⟨_, _, _, path.ends (.finished (finished final))⟩
    | some failure => exact completes
  · rintro ⟨count, events, now, ends⟩
    rcases evaluatesOnTheWay_of_ends carries ends with ⟨failure, rfl, evaluates⟩ |
      ⟨next, fewer, later, -, evaluates, atEnd⟩
    · exact evaluates
    · obtain ⟨-, -, rfl, same⟩ := atEnd.deterministic (.finished (finished next))
      rw [(Machine.mk.inj same).1]
      exact evaluates

/-- The runs of an interpreter are the evaluations of a block: a run succeeds as
the block evaluates without a failure, it fails as the block fails, and it goes
on for ever exactly if the block has no evaluation. -/
structure Interpreter.RunsAs (interpreter : Interpreter σ τ) (block : Block)
    (initial : State σ τ) : Prop where
  succeeds : ∀ final, (∃ steps now, interpreter.Succeeds steps ⟨final, now⟩) ↔
    Evaluates block initial none final
  fails : ∀ failure final, (∃ now, interpreter.Fails failure ⟨final, now⟩) ↔
    Evaluates block initial (some failure) final
  diverges : interpreter.Diverges ↔ ∀ failure? final, ¬ Evaluates block initial failure? final

/-- An interpreter with the program of a block runs as that block evaluates. -/
theorem Interpreter.runsAs_ofBlock (block : Block) (tape : Tape) (source : σ) (sink : τ) :
    Interpreter.RunsAs ⟨Program.ofBlock block, Machine.start tape source sink⟩ block
      ⟨tape, source, sink⟩ where
  succeeds := by
    intro final
    rw [evaluates_iff_ends]
    constructor
    · rintro ⟨steps, now, succeeds⟩
      obtain ⟨events, ends⟩ := Stepper.succeeds_iff.mp (succeeds_iff.mp succeeds)
      exact ⟨steps, events, now, ends⟩
    · rintro ⟨steps, events, now, ends⟩
      exact ⟨steps, now, succeeds_iff.mpr (Stepper.succeeds_iff.mpr ⟨events, ends⟩)⟩
  fails := by
    intro failure final
    rw [evaluates_iff_ends]
    constructor
    · rintro ⟨now, fails⟩
      obtain ⟨steps, events, ends⟩ := Stepper.fails_iff.mp (fails_iff.mp fails)
      exact ⟨steps, events, now, ends⟩
    · rintro ⟨steps, events, now, ends⟩
      exact ⟨now, fails_iff.mpr (Stepper.fails_iff.mpr ⟨steps, events, ends⟩)⟩
  diverges := by
    rw [diverges_iff, Stepper.diverges_iff]
    constructor
    · intro endless failure? final evaluates
      obtain ⟨steps, events, now, ends⟩ := evaluates_iff_ends.mp evaluates
      exact endless steps events failure? _ ends
    · intro unevaluated steps events failure? final ends
      have evaluates := evaluates_iff_ends.mpr ⟨steps, events, final.now, ends⟩
      exact unevaluated failure? final.state evaluates

/-- A balanced code can be read as one tree only, it is compiled to a program,
and on whatever tape, source and sink that program starts, its runs are the
evaluations of the tree. -/
theorem run_iff_evaluates {code : List Char} (balanced : Balanced code) (tape : Tape)
    (source : σ) (sink : τ) :
    ∃ (tree : Block) (interpreter : Interpreter σ τ),
      (∀ block : Block, block.code = code ↔ block = tree) ∧
        Interpreter.build code tape source sink = .ok interpreter ∧
        interpreter.RunsAs tree ⟨tape, source, sink⟩ := by
  obtain ⟨tree, rfl⟩ := balanced.exists_block
  refine ⟨tree, ⟨Program.ofBlock tree, Machine.start tape source sink⟩, ?_, ?_, ?_⟩
  · intro block
    exact Block.code_injective.eq_iff
  · exact Interpreter.build_of_parse tree.parse_code tape source sink
  · exact Interpreter.runsAs_ofBlock tree tape source sink

/-- A loop within a loop that reads and prints, from a source that fails. -/
theorem run_iff_evaluates_nested :
    Balanced [',', '[', '.', '[', '-', ']', ',', ']'] ∧
      ∃ (tree : Block) (interpreter : Interpreter CellScript Buffer),
        (∀ block : Block, block.code = [',', '[', '.', '[', '-', ']', ',', ']'] ↔ block = tree) ∧
          Interpreter.build [',', '[', '.', '[', '-', ']', ',', ']'] .standard
            (CellScript.mk [.ok 65, .error .writeZero]) .empty = .ok interpreter ∧
          interpreter.RunsAs tree
            ⟨.standard, CellScript.mk [.ok 65, .error .writeZero], .empty⟩ :=
  ⟨by decide, run_iff_evaluates (by decide) _ _ _⟩

end Brainfuck
