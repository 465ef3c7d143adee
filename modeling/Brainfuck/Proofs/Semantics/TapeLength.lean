import Brainfuck.Proofs.Semantics.Bounds
import Brainfuck.Proofs.Semantics.Resemblance

/-!
# Tapes of different lengths

A machine cannot tell how long its tape is before it goes over an end. Until then, the same
program on a longer tape does the same, and the cells of the longer tape are those of the
shorter one with zeros behind them: `Tape.Extends`. Only a machine that is about to wrap,
`Machine.AboutToWrap`, has to be kept apart, and all that is done before its step is in
accord: `inAccord_onLongerTape`.
-/

namespace Brainfuck

/-- The wide tape has its pointer where the narrow one, of length `short`, has it, and the
same cells with zeros behind them up to the length `long`. -/
structure Tape.Extends (short long : Nat) (narrow wide : Tape) : Prop where
  length : narrow.length = short
  pointer : wide.pointer = narrow.pointer
  cells : wide.cells.toList = narrow.cells.toList ++ List.replicate (long - short) 0

namespace Tape.Extends

variable {short long : Nat} {narrow wide : Tape}

/-- Blank tapes of the two lengths. -/
theorem blank (positive : 0 < short) (fits : short ≤ long) :
    Extends short long (Tape.blank short positive)
      (Tape.blank long (Nat.lt_of_lt_of_le positive fits)) where
  length := Array.size_replicate
  pointer := rfl
  cells := by
    have whole : short + (long - short) = long := Nat.add_sub_cancel' fits
    simp [Tape.blank, List.replicate_append_replicate, whole]

/-- The wide tape is not shorter. -/
theorem length_le (related : Extends short long narrow wide) : narrow.length ≤ wide.length := by
  have lengths : wide.length = narrow.length + (long - short) := by
    simpa [Tape.length] using congrArg List.length related.cells
  rw [lengths]
  exact Nat.le_add_right _ _

/-- Only the narrow tape's own cells are shown and stored. -/
theorem congruence : Tape.Congruence (Extends short long) where
  cell {narrow wide} related := by
    have here := wide.getElem?_pointer
    rw [← Array.getElem?_toList, related.cells, related.pointer,
      List.getElem?_append_left narrow.pointer_lt, Array.getElem?_toList,
      narrow.getElem?_pointer] at here
    exact Option.some.inj here
  store {narrow wide} value related := by
    refine ⟨(narrow.length_store value).trans related.length, related.pointer, ?_⟩
    simp only [store, Array.toList_set, related.cells, related.pointer]
    exact List.set_append_left _ _ narrow.pointer_lt

/-- A move to the right that stays on the narrow tape is the same move on both. -/
theorem moveRight (related : Extends short long narrow wide)
    (inside : narrow.pointer + 1 < narrow.length) :
    Extends short long narrow.moveRight.1 wide.moveRight.1 ∧
      narrow.moveRight.2 = wide.moveRight.2 := by
  have insideWide : wide.pointer + 1 < wide.length := by
    rw [related.pointer]
    exact Nat.lt_of_lt_of_le inside related.length_le
  rw [Tape.moveRight_of_lt inside, Tape.moveRight_of_lt insideWide]
  exact ⟨⟨related.length, congrArg (· + 1) related.pointer, related.cells⟩, rfl⟩

/-- A move to the left that stays on the narrow tape is the same move on both. -/
theorem moveLeft (related : Extends short long narrow wide) (inside : 0 < narrow.pointer) :
    Extends short long narrow.moveLeft.1 wide.moveLeft.1 ∧
      narrow.moveLeft.2 = wide.moveLeft.2 := by
  have insideWide : 0 < wide.pointer := related.pointer ▸ inside
  rw [Tape.moveLeft_of_pos inside, Tape.moveLeft_of_pos insideWide]
  exact ⟨⟨related.length, congrArg (· - 1) related.pointer, related.cells⟩, rfl⟩

end Tape.Extends

/-- The next instruction is a move that goes over an end of the tape. -/
def Machine.AboutToWrap {σ τ : Type} (program : Program) (machine : Machine σ τ) : Prop :=
  ∃ command, program.get? machine.now = some (.command command) ∧ machine.state.Wraps command

instance {σ τ : Type} (program : Program) (machine : Machine σ τ) :
    Decidable (machine.AboutToWrap program) :=
  match here : program.get? machine.now with
  | some (.command command) =>
      decidable_of_iff (machine.state.Wraps command)
        ⟨fun wraps => ⟨command, here, wraps⟩, fun ⟨found, there, wraps⟩ => by
          obtain rfl := Instruction.command.inj (Option.some.inj (here.symm.trans there))
          exact wraps⟩
  | some (.loopBegin _) | some (.loopEnd _) | none =>
      .isFalse fun ⟨_, there, _⟩ => by simp [here] at there

variable {σ τ : Type} [Source σ] [Sink τ]

/-- A command that does not go over an end of the narrow tape does the same on both. -/
theorem State.Resembles.perform_within {short long : Nat} {narrow wide : State σ τ}
    (resembles : State.Resembles (Tape.Extends short long) narrow wide) {command : Command}
    (within : ¬ narrow.Wraps command) :
    (narrow.perform command).Accords (fun _ => true)
      (State.Resembles (Tape.Extends short long)) (wide.perform command) := by
  cases command with
  | moveRight =>
      have notLast : narrow.tape.pointer + 1 ≠ narrow.tape.length := fun last => within (.right last)
      have inside := Nat.lt_of_le_of_ne narrow.tape.pointer_lt notLast
      obtain ⟨related, sameEvents⟩ := resembles.tape.moveRight inside
      exact ⟨rfl, congrArg _ sameEvents, related, resembles.source, resembles.sink⟩
  | moveLeft =>
      have notFirst : narrow.tape.pointer ≠ 0 := fun first => within (.left first)
      have inside := Nat.pos_of_ne_zero notFirst
      obtain ⟨related, sameEvents⟩ := resembles.tape.moveLeft inside
      exact ⟨rfl, congrArg _ sameEvents, related, resembles.source, resembles.sink⟩
  | increment | decrement | output | input =>
      exact resembles.perform_accords Tape.Extends.congruence rfl

/-- Machines of one program on tapes of different lengths are in accord until the narrow
one is about to wrap. -/
theorem Machine.accord_extends (program : Program) (short long : Nat) :
    Stepper.Accord (stepper program : Stepper (Machine σ τ)) (stepper program)
      (fun machine => ¬ machine.AboutToWrap program) (fun _ => true)
      (Aligned (State.Resembles (Tape.Extends short long))) := by
  have performs : ∀ {narrow wide : Machine σ τ} {command : Command},
      State.Resembles (Tape.Extends short long) narrow.state wide.state ->
      ¬ narrow.AboutToWrap program ->
      program.get? narrow.now = some (.command command) ->
      (narrow.state.perform command).Accords (fun _ => true)
        (State.Resembles (Tape.Extends short long)) (wide.state.perform (id command)) := by
    intro narrow wide command resembles within here
    apply resembles.perform_within
    intro wraps
    exact within ⟨command, here, wraps⟩
  have accord := accord_of_perform Tape.Extends.congruence performs
  rwa [Program.exchanged_id] at accord

/-- The length of the tape does not matter before the pointer goes over an end of it. For
every balanced code, every source and every sink, and for a tape that is not shorter: as
long as no attempt on the shorter tape was a move over one of its ends, the machines stand
at the same place with the same pointer, the same source and the same sink, the cells of
the longer tape are those of the shorter one and then zeros, and steps and runs fail or
finish alike, count alike and log alike. -/
theorem inAccord_onLongerTape {code : List Char} (balanced : Balanced code) {short long : Nat}
    (positive : 0 < short) (fits : short ≤ long) (source : σ) (sink : τ) :
    ∃ narrow wide : Interpreter σ τ,
      Interpreter.build code (Tape.blank short positive) source sink = .ok narrow ∧
      Interpreter.build code (Tape.blank long (Nat.lt_of_lt_of_le positive fits)) source sink =
        .ok wide ∧
      narrow.InAccord wide (fun machine => ¬ machine.AboutToWrap narrow.program)
        (fun _ => true) (Machine.Aligned (State.Resembles (Tape.Extends short long))) := by
  obtain ⟨block, rfl⟩ := balanced.exists_block
  refine ⟨_, _, Interpreter.build_of_parse block.parse_code _ source sink,
    Interpreter.build_of_parse block.parse_code _ source sink, ?_⟩
  apply Interpreter.inAccord_of_accord (Machine.accord_extends (Program.ofBlock block) short long)
  exact ⟨rfl, Tape.Extends.blank positive fits, rfl, rfl⟩

/-- A loop that moves to the right and reads, between a source that fails once and a
buffer. On two cells its eighth attempt is the first to go over an end; up to there a tape
of five cells makes no difference. -/
theorem inAccord_onLongerTape_reading :
    Balanced ['+', '[', '>', ',', ']'] ∧ 2 ≤ 5 ∧
      ∃ narrow wide,
        Interpreter.build ['+', '[', '>', ',', ']'] (Tape.blank 2 (by decide))
            (CellScript.mk [.error ⟨.other, ""⟩, .ok 1]) Buffer.empty = .ok narrow ∧
          Interpreter.build ['+', '[', '>', ',', ']'] (Tape.blank 5 (by decide))
            (CellScript.mk [.error ⟨.other, ""⟩, .ok 1]) Buffer.empty = .ok wide ∧
          (∀ moment, moment < 7 -> ¬ (narrow.after moment).AboutToWrap narrow.program) ∧
          (narrow.after 7).AboutToWrap narrow.program ∧
          Machine.Aligned (State.Resembles (Tape.Extends 2 5)) (narrow.after 7) (wide.after 7) := by
  have balanced : Balanced ['+', '[', '>', ',', ']'] := by decide
  have parsed : Program.parse ['+', '[', '>', ',', ']'] =
      .ok ⟨#[.command .increment, .loopBegin 4, .command .moveRight, .command .input,
        .loopEnd 1]⟩ := rfl
  obtain ⟨narrow, wide, builtNarrow, builtWide, accord⟩ :=
    inAccord_onLongerTape balanced (by decide : 0 < 2) (by decide : 2 ≤ 5)
      (CellScript.mk [.error ⟨.other, ""⟩, .ok 1]) Buffer.empty
  obtain rfl := Except.ok.inj ((Interpreter.build_of_parse parsed _ _ _).symm.trans builtNarrow)
  refine ⟨balanced, by decide, _, wide, builtNarrow, builtWide, ?kept, ?wraps,
    accord.moments 7 ?kept⟩
  case kept => decide
  case wraps => decide

end Brainfuck
