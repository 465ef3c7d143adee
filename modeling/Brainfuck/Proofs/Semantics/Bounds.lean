import Brainfuck.Proofs.Semantics.Calls

/-!
# A machine stays within its bounds

The tape keeps its length and the pointer stays on it, whatever commands do and however
they fail, and the place never goes beyond the end of the program. Loops are what could
lead there, since a skipped loop goes on behind its closing bracket: a machine comes to
the very end that way and no further, because every bracket of a program that was
compiled names its partner. `Machine.InBounds` collects what this means to whoever
makes calls, and `build_inBounds` says that no sequence of calls leaves it.
-/

namespace Brainfuck

variable {σ τ : Type} [Source σ] [Sink τ]

/-- No command changes the length of the tape, not even one that fails. -/
theorem State.length_perform (state : State σ τ) (command : Command) :
    (state.perform command).after.tape.length = state.tape.length := by
  rcases state with ⟨tape, source, sink⟩
  cases command with
  | moveRight => exact tape.length_moveRight
  | moveLeft => exact tape.length_moveLeft
  | increment => exact tape.length_store (tape.cell + 1)
  | decrement => exact tape.length_store (tape.cell - 1)
  | output =>
      rcases put : Sink.put tape.cell.toChar sink with ⟨failure | _, written⟩
      · simp only [perform, put]
      · simp only [perform, put]
  | input =>
      rcases read : Source.read source with ⟨failure | value, rest⟩
      · simp only [perform, read]
      · simp only [perform, read]
        exact tape.length_store value

/-- A command goes over an end of the tape: to the right from the last cell or to the
left from the first. -/
inductive State.Wraps {σ τ : Type} (state : State σ τ) : Command -> Prop where
  | right (last : state.tape.pointer + 1 = state.tape.length) : Wraps state .moveRight
  | left (first : state.tape.pointer = 0) : Wraps state .moveLeft

instance {σ τ : Type} (state : State σ τ) (command : Command) : Decidable (state.Wraps command) :=
  match command with
  | .moveRight =>
      decidable_of_iff (state.tape.pointer + 1 = state.tape.length) ⟨.right, fun | .right last => last⟩
  | .moveLeft => decidable_of_iff (state.tape.pointer = 0) ⟨.left, fun | .left first => first⟩
  | .increment | .decrement | .output | .input => .isFalse nofun

/-- Only a command that goes over an end logs that the pointer wrapped. -/
theorem State.wraps_of_mem_events {state : State σ τ} {command : Command} {before behind : Nat}
    (logged : Event.pointerWrapped before behind ∈ (state.perform command).events) :
    state.Wraps command := by
  rcases state with ⟨tape, source, sink⟩
  cases command with
  | moveRight =>
      by_cases last : tape.pointer + 1 = tape.cells.size
      · exact .right last
      · simp [perform, Tape.moveRight, last] at logged
  | moveLeft =>
      by_cases first : tape.pointer = 0
      · exact .left first
      · simp [perform, Tape.moveLeft, first] at logged
  | increment => simp [perform] at logged
  | decrement => simp [perform] at logged
  | output =>
      rcases put : Sink.put tape.cell.toChar sink with ⟨failure | _, written⟩
      · simp [perform, put] at logged
      · simp [perform, put] at logged
  | input =>
      rcases read : Source.read source with ⟨failure | value, rest⟩
      · simp [perform, read] at logged
      · by_cases isReturn : value = carriageReturn
        · simp [perform, read, receptionEvents, isReturn] at logged
        · simp [perform, read, receptionEvents, isReturn] at logged

namespace Machine

variable {program : Program} {machine : Machine σ τ}

/-- A step logs that the pointer wrapped only at a command that goes over an end. -/
theorem exists_wraps_of_mem_events {before behind : Nat}
    (logged : Event.pointerWrapped before behind ∈ (machine.step program).events) :
    ∃ command, program.get? machine.now = some (.command command) ∧
      machine.state.Wraps command := by
  have steps := stepsAs_step program machine
  generalize machine.step program = attempt at steps logged
  cases steps with
  | idle => simp at logged
  | performed here performed =>
      exact ⟨_, here, State.wraps_of_mem_events (by rwa [performed])⟩
  | failed here performed =>
      exact ⟨_, here, State.wraps_of_mem_events (by rwa [performed])⟩
  | skipped => simp at logged
  | entered => simp at logged
  | turned => simp at logged

/-- A state that a command leaves has a tape of the same length. -/
theorem length_of_performed {state next : State σ τ} {command : Command}
    {failure? : Option IoFailure} {events : List Event}
    (performed : state.perform command = ⟨next, failure?, events⟩) :
    next.tape.length = state.tape.length := by
  have kept := state.length_perform command
  rwa [performed] at kept

/-- No step changes the length of the tape. -/
theorem length_step (program : Program) (machine : Machine σ τ) :
    (machine.step program).after.state.tape.length = machine.state.tape.length := by
  have steps := stepsAs_step program machine
  generalize machine.step program = attempt at steps
  cases steps with
  | idle => rfl
  | performed _ performed => exact length_of_performed performed
  | failed _ performed => exact length_of_performed performed
  | skipped => rfl
  | entered => rfl
  | turned => rfl

/-- The machine is about to jump: past a loop on a zero cell, to the place behind its
closing bracket, or from the end of a loop back to its beginning. -/
inductive JumpsTo (program : Program) (machine : Machine σ τ) : Nat -> Prop where
  | past {partner : Nat} (here : program.get? machine.now = some (.loopBegin partner))
      (zero : machine.state.tape.cell = 0) : JumpsTo program machine (partner + 1)
  | back {partner : Nat} (here : program.get? machine.now = some (.loopEnd partner)) :
      JumpsTo program machine partner

/-- A step takes the jump that the machine is about to make. -/
theorem JumpsTo.now_step {target : Nat} (jumps : machine.JumpsTo program target) :
    (machine.step program).after.now = target := by
  cases jumps with
  | past here zero => rw [step_of_zero here zero]
  | back here => rw [step_of_loopEnd here]

/-- The machine is within a program and on a tape of so many cells: it is finished exactly
at the end of the program, the jump that it is about to make leads to an instruction or
to that end, and once it is finished all calls succeed and leave it as it is. -/
structure InBounds (program : Program) (cells : Nat) (machine : Machine σ τ) : Prop where
  length : machine.state.tape.length = cells
  pointer : machine.state.tape.pointer < cells
  now : machine.now ≤ program.size
  finished : machine.finished program = true ↔ machine.now = program.size
  jumps : ∀ target, machine.JumpsTo program target ->
    (machine.step program).after.now = target ∧ target ≤ program.size
  idle : machine.finished program = true -> ∀ calls,
    callAll program calls machine = (calls.map Call.idleReply, machine)

/-- A machine within a closed program is in bounds. -/
theorem inBounds_of_now_le (closed : program.Closed) (within : machine.now ≤ program.size) :
    machine.InBounds program machine.state.tape.length where
  length := rfl
  pointer := machine.state.tape.pointer_lt
  now := within
  finished := by
    rw [Machine.finished, decide_eq_true_iff]
    constructor
    · intro behind
      exact Nat.le_antisymm within behind
    · intro atEnd
      exact Nat.le_of_eq atEnd.symm
  jumps target jumps := by
    have stays := now_step_le closed within
    rw [jumps.now_step] at stays
    exact ⟨jumps.now_step, stays⟩
  idle := callAll_of_finished

end Machine

namespace Interpreter

/-- At every moment the tape of an interpreter has the length that it had at first. -/
theorem length_after (interpreter : Interpreter σ τ) (count : Nat) :
    (interpreter.after count).state.tape.length = interpreter.machine.state.tape.length := by
  let keepsLength (machine : Machine σ τ) : Prop :=
    machine.state.tape.length = interpreter.machine.state.tape.length
  apply Stepper.attempts_keep keepsLength
  · intro machine kept
    exact (Machine.length_step interpreter.program machine).trans kept
  · rfl

/-- All calls leave the machine of an interpreter of a closed program in bounds. -/
theorem inBounds_afterCalls {interpreter : Interpreter σ τ}
    (closed : interpreter.program.Closed)
    (initially : interpreter.machine.now ≤ interpreter.program.size) (calls : List Call) :
    (interpreter.afterCalls calls).InBounds interpreter.program
      interpreter.machine.state.tape.length := by
  obtain ⟨count, stands⟩ := interpreter.exists_after_calls calls
  rw [stands, ← interpreter.length_after count]
  exact Machine.inBounds_of_now_le closed (now_after_le closed initially count)

end Interpreter

/-- For every balanced code, every tape, every source and every sink, whatever steps and
runs are asked for, and whether they succeed or fail: the machine is in bounds. -/
theorem build_inBounds {code : List Char} (balanced : Balanced code) (tape : Tape) (source : σ)
    (sink : τ) :
    ∃ interpreter, Interpreter.build code tape source sink = .ok interpreter ∧
      ∀ calls, (interpreter.afterCalls calls).InBounds interpreter.program tape.length := by
  obtain ⟨block, rfl⟩ := balanced.exists_block
  have closed := Program.closed_of_parse block.parse_code
  refine ⟨_, Interpreter.build_of_parse block.parse_code tape source sink, ?_⟩
  exact Interpreter.inBounds_afterCalls closed (Nat.zero_le _)

/-- A loop that ends the program, on a tape of one cell, between a source and a writer
that fail. -/
theorem build_inBounds_oneCell :
    Balanced [',', '[', '>', '.', '-', ']'] ∧
      ∃ interpreter,
        Interpreter.build [',', '[', '>', '.', '-', ']'] (Tape.blank 1 (by decide))
            (CellScript.mk [.error ⟨.other, ""⟩, .ok 2])
            (Stream.fresh (WriteScript.mk [.failure ⟨.brokenPipe, ""⟩, .upTo 0] []) .utf8) =
          .ok interpreter ∧
        ∀ calls, (interpreter.afterCalls calls).InBounds interpreter.program 1 :=
  ⟨by decide, build_inBounds (by decide) (Tape.blank 1 (by decide)) _ _⟩

end Brainfuck
