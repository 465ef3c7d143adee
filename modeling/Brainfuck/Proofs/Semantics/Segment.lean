import Brainfuck.Proofs.Semantics.Calls

/-!
# Straight segments

A segment of a program is straight if nothing but moves and signs stands in it. What a
machine does there can be told without going through it: the ring is turned by as many
places as the segment has more moves to the right than to the left, and each cell gains as
many more increments than decrements as are come to with the pointer on that cell. A cell
that goes over a bound of its range on the way, perhaps back and forth, ends up where it
would if the gain were added at once. `State.Folds` says this of two states, folds are
put together by `State.Folds.trans`, and `build_folds` finds them in every program, from
every state that calls lead to.
-/

namespace Brainfuck

namespace Command

/-- The moves and the signs, which ask neither the source nor the sink. -/
def plain : List Command :=
  [.moveRight, .moveLeft, .increment, .decrement]

/-- By how many places a command turns the ring to the right. -/
def turn : Command -> Int
  | .moveRight => 1
  | .moveLeft => -1
  | _ => 0

/-- How much a command adds to the current cell. -/
def gain : Command -> Int
  | .increment => 1
  | .decrement => -1
  | _ => 0

end Command

namespace Program

/-- The next `count` instructions from a place on are moves and signs. -/
def Straight (program : Program) (place count : Nat) : Prop :=
  ∀ ahead, ahead < count -> ∃ command ∈ Command.plain,
    program.get? (place + ahead) = some (.command command)

instance (program : Program) (place count : Nat) : Decidable (program.Straight place count) :=
  inferInstanceAs (Decidable (∀ ahead, ahead < count -> ∃ command ∈ Command.plain,
    program.get? (place + ahead) = some (.command command)))

/-- How often a command stands among the next `count` instructions from a place on. -/
def occurrences (program : Program) (place : Nat) (command : Command) (count : Nat) : Nat :=
  (List.range count).countP fun ahead => program.get? (place + ahead) = some (.command command)

/-- By how many places the next `count` instructions turn the ring to the right. -/
def turns (program : Program) (place count : Nat) : Int :=
  program.occurrences place .moveRight count - program.occurrences place .moveLeft count

/-- How often a command stands among the next `count` instructions where it is come to with
the pointer on this cell, on a ring of this length and from this pointer on. -/
def occurrencesAt (program : Program) (place pointer length cell : Nat) (command : Command)
    (count : Nat) : Nat :=
  (List.range count).countP fun ahead =>
    program.get? (place + ahead) = some (.command command) ∧
      (pointer + program.turns place ahead) % length = cell

/-- How much the next `count` instructions add to a cell. -/
def gains (program : Program) (place pointer length count cell : Nat) : Int :=
  program.occurrencesAt place pointer length cell .increment count -
    program.occurrencesAt place pointer length cell .decrement count

variable {program : Program} {place count : Nat} {command : Command}

/-- The last one of some instructions may be the command. -/
theorem occurrences_succ (program : Program) (place : Nat) (command : Command) (count : Nat) :
    program.occurrences place command (count + 1) = program.occurrences place command count +
      if program.get? (place + count) = some (.command command) then 1 else 0 := by
  simp [occurrences, List.range_succ, List.countP_singleton]

/-- The last one of some instructions may be the command, and may find the pointer there. -/
theorem occurrencesAt_succ (program : Program) (place pointer length cell : Nat)
    (command : Command) (count : Nat) :
    program.occurrencesAt place pointer length cell command (count + 1) =
      program.occurrencesAt place pointer length cell command count +
        if program.get? (place + count) = some (.command command) ∧
          (pointer + program.turns place count) % length = cell then 1 else 0 := by
  simp [occurrencesAt, List.range_succ, List.countP_singleton]

/-- The last one of some instructions turns the ring in its own way. -/
theorem turns_succ (here : program.get? (place + count) = some (.command command)) :
    program.turns place (count + 1) = program.turns place count + command.turn := by
  rw [turns, turns, occurrences_succ, occurrences_succ, here]
  cases command <;> simp [Command.turn] <;> omega

/-- The last one of some instructions adds to the cell on which it finds the pointer. -/
theorem gains_succ (here : program.get? (place + count) = some (.command command))
    (pointer length cell : Nat) :
    program.gains place pointer length (count + 1) cell =
      program.gains place pointer length count cell +
        if (cell : Int) = (pointer + program.turns place count) % length then command.gain
        else 0 := by
  rw [gains, gains, occurrencesAt_succ, occurrencesAt_succ, here]
  by_cases there : (cell : Int) = (pointer + program.turns place count) % length
  · cases command <;> simp [there, Command.gain] <;> omega
  · have elsewhere := Ne.symm there
    simp [there, elsewhere]

end Program

variable {σ τ : Type}

/-- The source and the sink are as before, the pointer has been turned by so many places on
the ring, and each cell has gained what is added at its place, reduced to the signed range
of cells, modulo the number of their values. -/
structure State.Folds (turn : Int) (added : Nat -> Int) (before after : State σ τ) : Prop where
  source : after.source = before.source
  sink : after.sink = before.sink
  length : after.tape.length = before.tape.length
  pointer : (after.tape.pointer : Int) = (before.tape.pointer + turn) % before.tape.length
  cells : ∀ place, after.tape.cells[place]?.map Int64.toInt =
    before.tape.cells[place]?.map fun cell => (cell.toInt + added place).bmod Int64.size

namespace State.Folds

variable {first middle last : State σ τ} {turn onward : Int} {added later : Nat -> Int}

/-- Nothing to fold. -/
theorem refl (state : State σ τ) : Folds 0 (fun _ => 0) state state where
  source := rfl
  sink := rfl
  length := rfl
  pointer := by
    have inside : (state.tape.pointer : Int) < state.tape.length :=
      Int.ofNat_lt.mpr state.tape.pointer_lt
    rw [Int.add_zero, Int.emod_eq_of_lt (Int.natCast_nonneg _) inside]
  cells place := by simp

/-- One fold after another: turns and gains are added, wherever they went round. -/
theorem trans (onto : Folds turn added first middle) (next : Folds onward later middle last) :
    Folds (turn + onward) (fun place => added place + later place) first last where
  source := next.source.trans onto.source
  sink := next.sink.trans onto.sink
  length := next.length.trans onto.length
  pointer := by
    rw [next.pointer, onto.pointer, onto.length, Int.emod_add_emod, Int.add_assoc]
  cells place := by
    have reduced : ∀ cell : Cell,
        ((cell.toInt + added place).bmod Int64.size + later place).bmod Int64.size =
          (cell.toInt + (added place + later place)).bmod Int64.size := by
      intro cell
      rw [Int.bmod_add_bmod, Int.add_assoc]
    calc last.tape.cells[place]?.map Int64.toInt
        = (middle.tape.cells[place]?.map Int64.toInt).map
            fun value => (value + later place).bmod Int64.size := by
          rw [next.cells, Option.map_map]
          rfl
      _ = first.tape.cells[place]?.map
            fun cell => (cell.toInt + (added place + later place)).bmod Int64.size := by
          rw [onto.cells, Option.map_map]
          exact congrArg (Option.map · _) (funext reduced)

/-- A move turns the ring and leaves its cells. -/
theorem of_moved {tape moved : Tape} {source : σ} {sink : τ}
    (cells : moved.cells = tape.cells)
    (pointer : (moved.pointer : Int) = (tape.pointer + turn) % tape.length) :
    Folds turn (fun _ => 0) ⟨tape, source, sink⟩ ⟨moved, source, sink⟩ where
  source := rfl
  sink := rfl
  length := congrArg Array.size cells
  pointer := pointer
  cells place := by simp [cells]

/-- A value that is stored adds its difference to the current cell only. -/
theorem of_stored {tape : Tape} {value : Cell} {unit : Int} {source : σ} {sink : τ}
    (shifted : value.toInt = (tape.cell.toInt + unit).bmod Int64.size) :
    Folds 0 (fun place => if place = tape.pointer then unit else 0) ⟨tape, source, sink⟩
      ⟨tape.store value, source, sink⟩ where
  source := rfl
  sink := rfl
  length := tape.length_store value
  pointer := (refl (⟨tape, source, sink⟩ : State σ τ)).pointer
  cells place := by
    by_cases here : place = tape.pointer
    · subst here
      have stored := (tape.store value).getElem?_pointer
      rw [Tape.pointer_store, Tape.cell_store] at stored
      simp only [stored, tape.getElem?_pointer, Option.map_some, if_true, shifted]
    · simp [here, Tape.store, Ne.symm here]

end State.Folds

variable [Source σ] [Sink τ]

/-- A move or a sign succeeds, and folds as it turns the ring and as it adds. -/
theorem State.folds_perform (state : State σ τ) {command : Command}
    (plain : command ∈ Command.plain) :
    (state.perform command).failure? = none ∧
      State.Folds command.turn
        (fun place => if place = state.tape.pointer then command.gain else 0)
        state (state.perform command).after := by
  rcases state with ⟨tape, source, sink⟩
  cases command with
  | moveRight =>
      refine ⟨rfl, ?_⟩
      simp only [Command.gain, ite_self]
      apply Folds.of_moved tape.cells_moveRight
      rw [tape.pointer_moveRight, Command.turn]
      push_cast
      rfl
  | moveLeft =>
      refine ⟨rfl, ?_⟩
      simp only [Command.gain, ite_self]
      apply Folds.of_moved tape.cells_moveLeft
      have positive : 1 ≤ tape.length := Nat.lt_of_le_of_lt (Nat.zero_le _) tape.pointer_lt
      rw [tape.pointer_moveLeft, Command.turn]
      push_cast [positive]
      rw [show (tape.pointer : Int) + (tape.length - 1) = tape.pointer + -1 + tape.length by omega,
        Int.add_emod_right]
  | increment =>
      exact ⟨rfl, Folds.of_stored (Int64.toInt_add tape.cell 1)⟩
  | decrement =>
      exact ⟨rfl, Folds.of_stored (Int64.toInt_sub tape.cell 1)⟩
  | output => simp [Command.plain] at plain
  | input => simp [Command.plain] at plain

namespace Machine

variable {program : Program} {machine : Machine σ τ} {count : Nat}

/-- The next `count` steps all succeed and come to the place behind the instructions, and
what they do to the state is folded. -/
structure Folds (program : Program) (count : Nat) (machine : Machine σ τ) : Prop where
  succeeds : ∀ moment, moment < count ->
    (((stepper program).attempts moment machine).step program).failure? = none
  now : ((stepper program).attempts count machine).now = machine.now + count
  state : State.Folds (program.turns machine.now count)
    (program.gains machine.now machine.state.tape.pointer machine.state.tape.length count)
    machine.state ((stepper program).attempts count machine).state

/-- A step at a move or a sign. -/
theorem folds_step {command : Command}
    (here : program.get? machine.now = some (.command command))
    (plain : command ∈ Command.plain) :
    (machine.step program).failure? = none ∧
      (machine.step program).after.now = machine.now + 1 ∧
      State.Folds command.turn
        (fun place => if place = machine.state.tape.pointer then command.gain else 0)
        machine.state (machine.step program).after.state := by
  rcases machine with ⟨state, place⟩
  obtain ⟨succeeds, folds⟩ := state.folds_perform plain
  rcases performed : state.perform command with ⟨next, _, events⟩
  rw [performed] at succeeds folds
  obtain rfl : _ = none := succeeds
  rw [step_of_performed here performed]
  exact ⟨rfl, rfl, folds⟩

/-- A straight segment folds, by induction on its length: its last step finds the pointer
where the steps before have turned it. -/
theorem folds_of_straight (straight : program.Straight machine.now count) :
    machine.Folds program count := by
  induction count with
  | zero =>
      refine ⟨fun moment less => absurd less (Nat.not_lt_zero moment), rfl, ?_⟩
      exact State.Folds.refl machine.state
  | succ count inductionHypothesis =>
      obtain ⟨succeeds, now, folds⟩ := inductionHypothesis fun ahead less =>
        straight ahead (Nat.lt_succ_of_lt less)
      obtain ⟨command, plain, here⟩ := straight count (Nat.lt_succ_self count)
      have onward : (stepper program).attempts (count + 1) machine =
          (((stepper program).attempts count machine).step program).after :=
        Stepper.attempts_add count 1 machine
      rw [← now] at here
      obtain ⟨succeedsLast, nowLast, foldsLast⟩ := folds_step here plain
      rw [now] at here
      refine ⟨?_, ?_, ?_⟩
      · intro moment less
        rcases Nat.lt_succ_iff_lt_or_eq.mp less with before | rfl
        · exact succeeds moment before
        · exact succeedsLast
      · rw [onward, nowLast, now, Nat.add_assoc]
      · -- The place that the last sign changes is where the turns before have led the pointer.
        have gained : program.gains machine.now machine.state.tape.pointer
            machine.state.tape.length (count + 1) = fun place =>
              program.gains machine.now machine.state.tape.pointer machine.state.tape.length
                count place +
              if place = ((stepper program).attempts count machine).state.tape.pointer then
                command.gain else 0 := by
          funext place
          rw [Program.gains_succ here, ← folds.pointer]
          simp only [Int.natCast_inj]
        rw [onward, Program.turns_succ here, gained]
        exact folds.trans foldsLast

end Machine

/-- For every balanced code, every tape, every source and every sink, from every state that
calls lead to, whether they succeeded or failed: if the next instructions are moves and
signs, the steps through them succeed, and what they come to is folded. -/
theorem build_folds {code : List Char} (balanced : Balanced code) (tape : Tape) (source : σ)
    (sink : τ) :
    ∃ interpreter, Interpreter.build code tape source sink = .ok interpreter ∧
      ∀ calls count, interpreter.program.Straight (interpreter.afterCalls calls).now count ->
        (interpreter.afterCalls calls).Folds interpreter.program count := by
  obtain ⟨block, rfl⟩ := balanced.exists_block
  refine ⟨_, Interpreter.build_of_parse block.parse_code tape source sink, ?_⟩
  intro calls count straight
  exact Machine.folds_of_straight straight

/-- The greatest number that a cell can hold is read into one of two cells, raised over the
bound and brought back to it by the last of nine steps, four moves among them. -/
theorem build_folds_overBound :
    Balanced ",+>>+>-<--".toList ∧ ∃ interpreter : Interpreter CellScript Buffer,
      Interpreter.build ",+>>+>-<--".toList (Tape.blank 2 (by decide))
        (CellScript.mk [.ok 9223372036854775807]) Buffer.empty = .ok interpreter ∧
      interpreter.program.Straight (interpreter.afterCalls [.step]).now 9 ∧
      (interpreter.afterCalls [.step]).Folds interpreter.program 9 := by
  have balanced : Balanced ",+>>+>-<--".toList := by decide
  obtain ⟨interpreter, built, folds⟩ := build_folds balanced (Tape.blank 2 (by decide))
    (CellScript.mk [.ok 9223372036854775807]) Buffer.empty
  have straight : interpreter.program.Straight (interpreter.afterCalls [.step]).now 9 := by
    have parsed : Interpreter.build ",+>>+>-<--".toList (Tape.blank 2 (by decide))
        (CellScript.mk [.ok 9223372036854775807]) Buffer.empty = .ok _ := rfl
    cases Except.ok.inj (built.symm.trans parsed)
    decide
  exact ⟨balanced, interpreter, built, straight, folds [.step] 9 straight⟩

end Brainfuck
