import Brainfuck.Proofs.Encoding.RoundTrip
import Brainfuck.Proofs.Output.Collecting
import Brainfuck.Proofs.Semantics.Bounds

/-!
# Encoded texts are confined to two cells

The footprint of an encoded text is what is true at every moment of running it before
a buffer. A machine before any other sink goes through the same places, so that the
same is true of it: `Confined` says it of the numbers in the cells themselves. The
bounds of the numbers are the worst that the loops can do. A loop goes past its goal by
less than its root, which is at most 1056, and the signs behind it make up for that
before anything is printed.
-/

namespace Brainfuck.Encoding

variable {σ τ : Type} {room taken : Nat} {text : List Char} {value counter : Int}
  {pointer : Fin 2}

/-- Numbers within the bounds are held by cells as they are. -/
theorem Within.toInt_ofInt (within : Within value counter) :
    (Int64.ofInt value).toInt = value ∧ (Int64.ofInt counter).toInt = counter := by
  obtain ⟨valueGe, valueLe, counterGe, counterLe⟩ := within
  exact ⟨Int64.toInt_ofInt_of_le (by omega) (by omega),
    Int64.toInt_ofInt_of_le (by omega) (by omega)⟩

/-- A sign changes a number as small as the bounds ask by one, and not round the range of
a cell. -/
theorem toInt_ofInt_signs {number : Int} (atLeast : -1055 ≤ number)
    (atMost : number ≤ 0x10ffff + 1055) :
    (Int64.ofInt number + 1).toInt = (Int64.ofInt number).toInt + 1 ∧
      (Int64.ofInt number - 1).toInt = (Int64.ofInt number).toInt - 1 := by
  have kept : (Int64.ofInt number).toInt = number :=
    Int64.toInt_ofInt_of_le (by omega) (by omega)
  have up : Int64.ofInt number + 1 = Int64.ofInt (number + 1) := by simp
  have down : Int64.ofInt number - 1 = Int64.ofInt (number - 1) := by simp
  rw [kept, up, down]
  exact ⟨Int64.toInt_ofInt_of_le (by omega) (by omega),
    Int64.toInt_ofInt_of_le (by omega) (by omega)⟩

/-- Within the bounds a sign changes the current number by one. -/
theorem Within.toInt_signs (within : Within value counter) :
    ((Tape.twoCells room value counter pointer).cell + 1).toInt =
        (Tape.twoCells room value counter pointer).cell.toInt + 1 ∧
      ((Tape.twoCells room value counter pointer).cell - 1).toInt =
        (Tape.twoCells room value counter pointer).cell.toInt - 1 := by
  obtain ⟨valueGe, valueLe, counterGe, counterLe⟩ := within
  match pointer with
  | 0 => exact toInt_ofInt_signs valueGe valueLe
  | 1 => exact toInt_ofInt_signs (by omega) (by omega)

/-- A command that fits does not go over an end of the tape. -/
theorem Fits.not_wraps {state : State σ τ} {command : Command}
    (fits : Fits text taken value counter pointer (.command command))
    (tape : state.tape = .twoCells room value counter pointer) : ¬ state.Wraps command := by
  intro wraps
  cases wraps with
  | right last =>
      obtain rfl : pointer = 0 := fits
      simp [tape, Tape.twoCells, Tape.length] at last
  | left first =>
      obtain rfl : pointer = 1 := fits
      simp [tape, Tape.twoCells] at first

/-- What an encoded text leaves behind is within the bounds. -/
theorem within_last (text : List Char) : Within ((text.map Char.toNat).getLastD 0 : Nat) 0 := by
  apply within_of_le
  rcases List.mem_cons.mp (List.getLastD_mem_cons (l := text.map Char.toNat) (a := 0)) with
    none | last
  · exact Nat.le_trans (Nat.le_of_eq none) (Nat.zero_le 0x10ffff)
  · obtain ⟨character, -, code⟩ := List.mem_map.mp last
    exact code ▸ toNat_le_last character

variable [Source σ] [Sink τ]

/-- What is true of a machine that has come somewhere in the code of a text, on a tape
of so many cells and when so many characters have been taken: two cells are used, the
pointer is at one of them and does not go over an end, and their numbers are within
the bounds, so that a sign changes them by one. What is printed is the first cell, which
then holds the code of the next character of the text. -/
structure Confined (program : Program) (text : List Char) (length taken : Nat)
    (machine : Machine σ τ) : Prop where
  pointer : machine.state.tape.pointer ≤ 1
  moves : ∀ command, program.get? machine.now = some (.command command) ->
    ¬ machine.state.Wraps command
  log : ∀ before behind,
    Event.pointerWrapped before behind ∉ (machine.step program).events
  cells : ∃ value counter, machine.state.tape.cells.toList =
      value :: counter :: List.replicate (length - 2) 0 ∧ Within value.toInt counter.toInt
  signs : (machine.state.tape.cell + 1).toInt = machine.state.tape.cell.toInt + 1 ∧
    (machine.state.tape.cell - 1).toInt = machine.state.tape.cell.toInt - 1
  output : program.get? machine.now = some (.command .output) ->
    machine.state.tape.pointer = 0 ∧ machine.state.tape.cells[1]? = some 0 ∧
      ∃ character, text[taken]? = some character ∧
        machine.state.tape.cell.toInt = character.toNat

/-- A machine is confined by numbers within the bounds, if its next instruction fits. -/
theorem Within.confined {program : Program} {machine : Machine σ τ}
    (within : Within value counter)
    (tape : machine.state.tape = .twoCells room value counter pointer)
    (fits : ∀ instruction, program.get? machine.now = some instruction ->
      Fits text taken value counter pointer instruction.symbol) :
    Confined program text (room + 2) taken machine where
  pointer := by
    rw [tape]
    exact Nat.le_of_lt_succ pointer.isLt
  moves command here := (fits _ here).not_wraps tape
  log before behind logged := by
    obtain ⟨command, here, wraps⟩ := Machine.exists_wraps_of_mem_events logged
    exact (fits _ here).not_wraps tape wraps
  cells := by
    obtain ⟨valueKept, counterKept⟩ := within.toInt_ofInt
    refine ⟨Int64.ofInt value, Int64.ofInt counter, ?_, ?_⟩
    · simp [tape, Tape.twoCells]
    · rwa [valueKept, counterKept]
  signs := by
    rw [tape]
    exact within.toInt_signs
  output here := by
    obtain ⟨rfl, rfl, character, turn, rfl⟩ := fits _ here
    rw [tape]
    exact ⟨rfl, rfl, character, turn, within.toInt_ofInt.1⟩

/-- A machine that stands where one before a buffer does at some moment of its passage
through an encoded text is confined. -/
theorem confined_of_collects {program : Program} {machine : Machine σ τ}
    {image : Machine σ Buffer} {source : σ}
    (collects : machine.Collects taken image)
    (moment : Machine.Meets program (Footprint room text) image ∨ image =
      ⟨stage room source text ((text.map Char.toNat).getLastD 0 : Nat) 0 0, program.size⟩) :
    Confined program text (room + 2) taken machine := by
  obtain ⟨now, tape, length⟩ := collects
  rcases moment with ⟨instruction, here, value, counter, pointer, twoCells, within, fits⟩ | rfl
  · refine within.confined (tape.trans twoCells) ?_
    intro found isThere
    rw [now, here] at isThere
    rwa [← Option.some.inj isThere, ← length]
  · refine (within_last text).confined tape ?_
    intro found isThere
    rw [now] at isThere
    simp [Program.get?, Program.size] at isThere

/-- For every text, every tape of at least two cells, every source and every sink, and
however often the sink fails: at every moment of running the code of the text the
machine is confined. -/
theorem encode_confined (text : List Char) {length : Nat} (roomForTwo : 2 ≤ length) (source : σ)
    (sink : τ) :
    ∃ interpreter : Interpreter σ τ,
      Interpreter.build (encode text) (.blank length (Nat.lt_of_lt_of_le (by decide) roomForTwo))
        source sink = .ok interpreter ∧
      ∀ count, Confined interpreter.program text length
        (interpreter.machine.taken interpreter.program count) (interpreter.after count) := by
  obtain ⟨room, rfl⟩ := Nat.exists_eq_add_of_le' roomForTwo
  obtain ⟨program, parsed, symbols, path⟩ := (traverses_encode room source text).run
  have noInput := get?_ne_input (comma_not_mem_encodeFrom 0 text) symbols
  refine ⟨_, Interpreter.build_of_parse parsed _ source sink, ?_⟩
  intro count
  have start : (Machine.start (.blank (room + 2) (Nat.succ_pos _)) source sink).Collects 0
      (Machine.start (.blank (room + 2) (Nat.succ_pos _)) source Buffer.empty) := ⟨rfl, rfl, rfl⟩
  obtain ⟨moment, collects⟩ := start.exists_attempts noInput count
  rw [Nat.zero_add] at collects
  refine confined_of_collects collects (path.attempts_cases ?_ moment)
  have behind : program.get? program.size = none := by simp [Program.get?, Program.size]
  simp [Machine.stepper, Machine.step, behind]

/-- A rising and a falling way, on a tape with no cell to spare, between a source that
only fails and a writer that breaks, takes a part of what it is offered and fails to
flush. -/
theorem encode_confined_refused :
    2 ≤ 2 ∧ ∃ interpreter : Interpreter CellScript (Stream WriteScript),
      Interpreter.build (encode ['é', 'A', 'B', '\x00']) (.blank 2 (by decide))
        (CellScript.mk [.error .writeZero])
        (Stream.fresh (WriteScript.mk [.failure ⟨.brokenPipe, ""⟩, .upTo 1, .upTo 0]
          [some ⟨.other, ""⟩]) .utf8) = .ok interpreter ∧
      ∀ count, Confined interpreter.program ['é', 'A', 'B', '\x00'] 2
        (interpreter.machine.taken interpreter.program count) (interpreter.after count) :=
  ⟨by decide, encode_confined ['é', 'A', 'B', '\x00'] (by decide) _ _⟩

end Brainfuck.Encoding
