import Brainfuck.Proofs.Code.Omission
import Brainfuck.Proofs.Semantics.Moments
import Brainfuck.Proofs.Semantics.Structured

/-!
# Loops at seams

A loop is left on a zero cell only, so a loop that begins directly behind another one, or
with which a program begins, is never entered. The place behind a closing bracket may be an
opening bracket that a jump comes back to, so what is true at a seam and what is true
within a loop at a seam hold together or not at all: `Machine.PassesSeams` says both, and
every step keeps it because no jump leads into a loop from outside. Without such a loop a
block evaluates as it does with it, `Block.Omits.alike`, and so the loop can be cut out of a
code (`build_passesSeams`).
-/

namespace Brainfuck

variable {σ τ : Type}

namespace Machine

/-- At a seam the cell of the machine is zero, and the machine is not behind the opening
bracket of any loop that begins at a seam, up to its closing bracket. -/
structure PassesSeams (program : Program) (machine : Machine σ τ) : Prop where
  zero : program.Seam machine.now -> machine.state.tape.cell = 0
  outside : ∀ opening closing, program.get? opening = some (.loopBegin closing) ->
    program.Seam opening -> ¬ (opening < machine.now ∧ machine.now ≤ closing)

variable {program : Program} {machine : Machine σ τ}

/-- Going on to the next place passes the seams, unless it goes on from a closing bracket or
into a loop that begins at a seam. -/
theorem PassesSeams.proceed (passes : machine.PassesSeams program) {instruction : Instruction}
    (here : program.get? machine.now = some instruction)
    (notClosing : ∀ opening, instruction ≠ .loopEnd opening)
    (notEntering : ∀ closing, instruction = .loopBegin closing -> ¬ program.Seam machine.now)
    (next : State σ τ) : PassesSeams program ⟨next, machine.now + 1⟩ where
  zero := by
    rintro (first | ⟨closing, opening, place, isClosing⟩)
    · cases first
    · obtain rfl : machine.now = closing := Nat.succ.inj place
      rw [here] at isClosing
      exact absurd (Option.some.inj isClosing) (notClosing opening)
  outside := by
    rintro opening closing isOpening seam ⟨behind, upTo⟩
    rcases Nat.lt_succ_iff_lt_or_eq.mp behind with before | rfl
    · exact passes.outside opening closing isOpening seam ⟨before, Nat.le_of_succ_le upTo⟩
    · rw [here] at isOpening
      exact notEntering closing (Option.some.inj isOpening) seam

/-- A jump from a bracket to its partner stays out of the loops that the bracket is not in. -/
theorem PassesSeams.outside_partner {code : List Char}
    (resolves : program.Resolves (Symbol.ofCode code)) (passes : machine.PassesSeams program)
    {partner : Nat}
    (partners : program.get? partner = some (.loopBegin machine.now) ∨
      program.get? partner = some (.loopEnd machine.now))
    {opening closing : Nat} (isOpening : program.get? opening = some (.loopBegin closing))
    (seam : program.Seam opening) : ¬ (opening < partner ∧ partner < closing) := by
  rintro ⟨behind, before⟩
  obtain ⟨behindNow, beforeNow⟩ :=
    resolves.nested opening closing partner machine.now isOpening behind before partners
  exact passes.outside opening closing isOpening seam ⟨behindNow, Nat.le_of_lt beforeNow⟩

variable [Source σ] [Sink τ]

/-- Every step passes the seams. -/
theorem PassesSeams.step {code : List Char}
    (resolves : program.Resolves (Symbol.ofCode code)) (passes : machine.PassesSeams program) :
    PassesSeams program (machine.step program).after := by
  have steps := stepsAs_step program machine
  generalize machine.step program = attempt at steps ⊢
  cases steps with
  | idle => exact passes
  | @performed command next _ here _ =>
      exact passes.proceed here (by simp) (by simp) next
  | failed here performed =>
      refine ⟨?_, passes.outside⟩
      intro seam
      rw [State.tape_of_failure performed]
      exact passes.zero seam
  | @skipped partner here zero =>
      obtain ⟨-, -, there⟩ := resolves.opening _ _ here
      refine ⟨fun _ => zero, ?_⟩
      rintro opening closing isOpening seam ⟨behind, upTo⟩
      rcases Nat.lt_succ_iff_lt_or_eq.mp behind with before | rfl
      · exact passes.outside_partner resolves (.inr there) isOpening seam ⟨before, upTo⟩
      · simp [there] at isOpening
  | entered here nonzero =>
      exact passes.proceed here (by simp) (fun _ _ seam => nonzero (passes.zero seam)) _
  | @turned partner here =>
      obtain ⟨before, there⟩ := resolves.closing _ _ here
      -- The loop that is turned in does not begin at a seam, or the machine would not be in it.
      constructor
      · intro seam
        exact absurd ⟨before, Nat.le_refl _⟩ (passes.outside _ _ there seam)
      · rintro opening closing isOpening seam ⟨behind, upTo⟩
        rcases Nat.lt_or_eq_of_le upTo with inside | rfl
        · exact passes.outside_partner resolves (.inl there) isOpening seam ⟨behind, inside⟩
        · obtain ⟨-, -, isClosing⟩ := resolves.opening _ _ isOpening
          simp [there] at isClosing

end Machine

/-- At every moment an interpreter of the program of a code that starts on a blank tape passes
the seams. -/
theorem Interpreter.passesSeams_after [Source σ] [Sink τ] {code : List Char} {program : Program}
    (resolves : program.Resolves (Symbol.ofCode code)) {length : Nat} (positive : 0 < length)
    (source : σ) (sink : τ) (count : Nat) :
    (Interpreter.after ⟨program, Machine.start (Tape.blank length positive) source sink⟩
      count).PassesSeams program := by
  apply Stepper.attempts_keep (Machine.PassesSeams program) (Machine.PassesSeams.step resolves)
  constructor
  · intro _
    simp [Machine.start, Tape.blank, Tape.cell]
  · rintro opening closing - - ⟨behind, -⟩
    exact absurd behind (Nat.not_lt_zero opening)

variable [Source σ] [Sink τ]

/-- Behind the same command, a block evaluates as another one does if it always does. -/
theorem Evaluates.command_congr {action : Command} {rest otherRest : Block}
    {state final : State σ τ} {failure? : Option IoFailure}
    (rests : ∀ {next : State σ τ} {failure?}, Evaluates rest next failure? final ->
      Evaluates otherRest next failure? final)
    (evaluates : Evaluates (.command action rest) state failure? final) :
    Evaluates (.command action otherRest) state failure? final := by
  cases evaluates with
  | command performed evaluatesRest => exact .command performed (rests evaluatesRest)
  | commandFails performed => exact .commandFails performed

/-- A loop evaluates as another one does if their bodies do, and what follows them does where
the cell is zero. -/
theorem Evaluates.loop_congr {body rest otherBody otherRest : Block} {state final : State σ τ}
    {failure? : Option IoFailure}
    (bodies : ∀ {state : State σ τ} {failure? final}, Evaluates body state failure? final ->
      Evaluates otherBody state failure? final)
    (rests : ∀ {state : State σ τ} {failure? final}, state.tape.cell = 0 ->
      Evaluates rest state failure? final -> Evaluates otherRest state failure? final)
    (evaluates : Evaluates (.loop body rest) state failure? final) :
    Evaluates (.loop otherBody otherRest) state failure? final := by
  generalize same : Block.loop body rest = block at evaluates
  induction evaluates with
  | done => cases same
  | comment => cases same
  | command => cases same
  | commandFails => cases same
  | loopSkipped zero evaluatesRest =>
      cases same
      exact .loopSkipped zero (rests zero evaluatesRest)
  | loopAgain nonzero evaluatesBody _ _ againHypothesis =>
      cases same
      exact .loopAgain nonzero (bodies evaluatesBody) (againHypothesis rfl)
  | loopFails nonzero evaluatesBody =>
      cases same
      exact .loopFails nonzero (bodies evaluatesBody)

namespace Block

/-- Two blocks evaluate alike from a state. -/
def AlikeFrom (state : State σ τ) (left right : Block) : Prop :=
  ∀ failure? final, Evaluates left state failure? final ↔ Evaluates right state failure? final

/-- From a state where the cell is zero, if a block begins at a seam, it evaluates like one
that omits a loop at a seam: induction on where that loop is, the loops around it being done
again and again. -/
theorem Omits.alike {seam : Bool} {block shorter : Block} (omits : Omits seam block shorter)
    {state : State σ τ} (zero : seam = true -> state.tape.cell = 0) :
    AlikeFrom state block shorter := by
  induction omits generalizing state with
  | loop =>
      intro failure? final
      constructor
      · intro evaluates
        cases evaluates with
        | loopSkipped _ evaluatesRest => exact evaluatesRest
        | loopAgain nonzero => exact absurd (zero rfl) nonzero
        | loopFails nonzero => exact absurd (zero rfl) nonzero
      · exact .loopSkipped (zero rfl)
  | comment _ inductionHypothesis =>
      intro failure? final
      constructor
      · rintro (_ | evaluatesRest)
        exact .comment ((inductionHypothesis zero failure? final).mp evaluatesRest)
      · rintro (_ | evaluatesRest)
        exact .comment ((inductionHypothesis zero failure? final).mpr evaluatesRest)
  | command _ inductionHypothesis =>
      intro failure? final
      constructor
      · exact .command_congr (inductionHypothesis nofun _ _).mp
      · exact .command_congr (inductionHypothesis nofun _ _).mpr
  | inside _ inductionHypothesis =>
      intro failure? final
      constructor
      · exact .loop_congr (inductionHypothesis nofun _ _).mp fun _ => id
      · exact .loop_congr (inductionHypothesis nofun _ _).mpr fun _ => id
  | behind _ inductionHypothesis =>
      intro failure? final
      constructor
      · exact .loop_congr id fun zero => (inductionHypothesis (fun _ => zero) _ _).mp
      · exact .loop_congr id fun zero => (inductionHypothesis (fun _ => zero) _ _).mpr

end Block

namespace Interpreter

/-- The runs of two interpreters come to the same: both succeed with the same tape, source
and sink, both fail with the same failure and leave these the same, or both go on for
ever. -/
structure EndsAlike (left right : Interpreter σ τ) : Prop where
  succeeds : ∀ final, (∃ steps now, left.Succeeds steps ⟨final, now⟩) ↔
    ∃ steps now, right.Succeeds steps ⟨final, now⟩
  fails : ∀ failure final, (∃ now, left.Fails failure ⟨final, now⟩) ↔
    ∃ now, right.Fails failure ⟨final, now⟩
  diverges : left.Diverges ↔ right.Diverges

/-- Interpreters that run as blocks which evaluate alike come to the same ends. -/
theorem RunsAs.endsAlike {left right : Interpreter σ τ} {block shorter : Block}
    {initial : State σ τ} (runsAs : left.RunsAs block initial)
    (runsAsShorter : right.RunsAs shorter initial) (alike : Block.AlikeFrom initial block shorter) :
    left.EndsAlike right where
  succeeds final := by
    rw [runsAs.succeeds, runsAsShorter.succeeds, alike]
  fails failure final := by
    rw [runsAs.fails, runsAsShorter.fails, alike]
  diverges := by
    rw [runsAs.diverges, runsAsShorter.diverges]
    exact forall₂_congr fun failure? final => not_congr (alike failure? final)

end Interpreter

/-- For every balanced code, every length of a blank tape, every source and every sink: the
cell is zero at each moment at which a loop has just been left, no instruction of a loop
that begins at a seam is come to behind its opening bracket, and the code without the
characters of such a loop is one whose runs come to the same. -/
theorem build_passesSeams {code : List Char} (balanced : Balanced code) {length : Nat}
    (positive : 0 < length) (source : σ) (sink : τ) :
    ∃ interpreter, Interpreter.build code (Tape.blank length positive) source sink =
        .ok interpreter ∧
      (∀ count, (interpreter.after count).PassesSeams interpreter.program) ∧
      ∀ before body behind, code = before ++ '[' :: (body ++ ']' :: behind) -> Balanced body ->
        interpreter.program.Seam (Symbol.ofCode before).length ->
        interpreter.program.get? (Symbol.ofCode before).length = some (.loopBegin
          ((Symbol.ofCode before).length + (Symbol.ofCode body).length + 1)) ∧
        ∃ shortened, Interpreter.build (before ++ behind) (Tape.blank length positive) source
            sink = .ok shortened ∧
          interpreter.EndsAlike shortened := by
  obtain ⟨block, rfl⟩ := balanced.exists_block
  have resolves := Program.resolves_ofBlock block
  refine ⟨_, Interpreter.build_of_parse block.parse_code _ source sink,
    Interpreter.passesSeams_after resolves positive source sink, ?_⟩
  intro before body behind split balancedBody seam
  refine ⟨Program.get?_of_loop split balancedBody, ?_⟩
  rw [split] at resolves
  obtain ⟨shorter, written, omits⟩ :=
    Block.exists_omits split balancedBody (resolves.atSeam seam)
  have alike : Block.AlikeFrom ⟨Tape.blank length positive, source, sink⟩ block shorter :=
    omits.alike fun _ => by simp [Tape.blank, Tape.cell]
  refine ⟨_, written ▸ Interpreter.build_of_parse shorter.parse_code _ source sink, ?_⟩
  exact (Interpreter.runsAs_ofBlock block _ source sink).endsAlike
    (Interpreter.runsAs_ofBlock shorter _ source sink) alike

/-- Behind a loop that clears a cell, and behind a comment, a loop that would print and read
is cut out, with the loop in it. -/
theorem build_passesSeams_commented :
    Balanced ",[>+<-]c[.[,]]>.".toList ∧ 0 < 3 ∧ Balanced ".[,]".toList ∧
      ∃ interpreter shortened,
        Interpreter.build ",[>+<-]c[.[,]]>.".toList (Tape.blank 3 (by decide))
          (CellScript.mk [.ok 2]) Buffer.empty = .ok interpreter ∧
        interpreter.program.Seam (Symbol.ofCode ",[>+<-]c".toList).length ∧
        Interpreter.build (",[>+<-]c".toList ++ ">.".toList) (Tape.blank 3 (by decide))
          (CellScript.mk [.ok 2]) Buffer.empty = .ok shortened ∧
        interpreter.EndsAlike shortened := by
  have balanced : Balanced ",[>+<-]c[.[,]]>.".toList := by decide
  have balancedBody : Balanced ".[,]".toList := by decide
  obtain ⟨interpreter, built, -, omitted⟩ := build_passesSeams balanced (by decide : 0 < 3)
    (CellScript.mk [.ok 2]) Buffer.empty
  have seam : interpreter.program.Seam (Symbol.ofCode ",[>+<-]c".toList).length := by
    have parsed : Interpreter.build ",[>+<-]c[.[,]]>.".toList (Tape.blank 3 (by decide))
        (CellScript.mk [.ok 2]) Buffer.empty = .ok _ := rfl
    cases Except.ok.inj (built.symm.trans parsed)
    exact .inr ⟨6, 1, rfl, rfl⟩
  obtain ⟨-, shortened, builtShortened, alike⟩ :=
    omitted ",[>+<-]c".toList ".[,]".toList ">.".toList rfl balancedBody seam
  exact ⟨balanced, by decide, balancedBody, interpreter, shortened, built, seam, builtShortened,
    alike⟩

end Brainfuck
