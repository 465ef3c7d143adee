import Brainfuck.Code.Symbol
import Brainfuck.Machine.Sink
import Brainfuck.Machine.Source

/-!
# States and commands

A state is all that commands can see and change: the tape, the source and the
sink. Performing a command is one attempt: it leaves a state, perhaps a failure,
and the events that are worth a log line. A command that fails leaves the tape
as it was.
-/

namespace Brainfuck

/-- What is left behind by something that may fail on the way, and what it
logged. -/
@[ext]
structure Attempt (α : Type) where
  after : α
  failure? : Option IoFailure
  events : List Event

/-- The tape, the source and the sink of a computation. -/
@[ext]
structure State (σ τ : Type) where
  tape : Tape
  source : σ
  sink : τ

/-- The character of a cell: its value as a code point if it is one, and the
replacement character for every other value. -/
def Cell.toChar (cell : Cell) : Char :=
  if 0 ≤ cell.toInt ∧ cell.toInt.toNat.isValidChar then Char.ofNat cell.toInt.toNat
  else '\ufffd'

/-- No character has a larger code than the last code point. -/
theorem toNat_le_last (character : Char) : character.toNat ≤ 0x10ffff := by
  rcases character.valid with small | ⟨-, large⟩
  · exact Nat.le_trans (Nat.le_of_lt small) (by decide)
  · exact Nat.le_of_lt_succ large

/-- The cell that holds the code of a character shows that character. -/
@[simp] theorem Cell.toChar_ofInt (character : Char) :
    Cell.toChar (Int64.ofInt character.toNat) = character := by
  have bound := toNat_le_last character
  have exact : (Int64.ofInt character.toNat).toInt = character.toNat :=
    Int64.toInt_ofInt_of_le (by omega) (by omega)
  have valid : character.toNat.isValidChar := character.valid
  simp [toChar, exact, valid]

/-- The value of a carriage return. -/
def carriageReturn : Cell := 13

/-- What is logged when the source has given this value. -/
def receptionEvents (value : Cell) : List Event :=
  if value = carriageReturn then [.carriageReturnRead] else []

namespace State

variable {σ τ : Type} [Source σ] [Sink τ]

/-- Attempts one command. -/
def perform (state : State σ τ) (command : Command) : Attempt (State σ τ) :=
  match command, state with
  | .moveRight, ⟨tape, source, sink⟩ =>
      let (moved, events) := tape.moveRight
      ⟨⟨moved, source, sink⟩, none, events⟩
  | .moveLeft, ⟨tape, source, sink⟩ =>
      let (moved, events) := tape.moveLeft
      ⟨⟨moved, source, sink⟩, none, events⟩
  | .increment, ⟨tape, source, sink⟩ =>
      ⟨⟨tape.store (tape.cell + 1), source, sink⟩, none, []⟩
  | .decrement, ⟨tape, source, sink⟩ =>
      ⟨⟨tape.store (tape.cell - 1), source, sink⟩, none, []⟩
  | .output, ⟨tape, source, sink⟩ =>
      match Sink.put tape.cell.toChar sink with
      | (.ok (), written) => ⟨⟨tape, source, written⟩, none, []⟩
      | (.error failure, written) => ⟨⟨tape, source, written⟩, some failure, []⟩
  | .input, ⟨tape, source, sink⟩ =>
      match Source.read source with
      | (.ok value, rest) => ⟨⟨tape.store value, rest, sink⟩, none, receptionEvents value⟩
      | (.error failure, rest) => ⟨⟨tape, rest, sink⟩, some failure, []⟩

variable {tape : Tape} {source rest : σ} {sink written : τ} {failure : IoFailure}

/-- A character that the sink takes is put. -/
theorem perform_output (put : Sink.put tape.cell.toChar sink = (.ok (), written)) :
    perform ⟨tape, source, sink⟩ .output = ⟨⟨tape, source, written⟩, none, []⟩ := by
  simp only [perform, put]

/-- A character that the sink refuses changes nothing but the sink. -/
theorem perform_output_of_error
    (put : Sink.put tape.cell.toChar sink = (.error failure, written)) :
    perform ⟨tape, source, sink⟩ .output = ⟨⟨tape, source, written⟩, some failure, []⟩ := by
  simp only [perform, put]

/-- A value that the source gives is stored. -/
theorem perform_input {value : Cell} (read : Source.read source = (.ok value, rest)) :
    perform ⟨tape, source, sink⟩ .input =
      ⟨⟨tape.store value, rest, sink⟩, none, receptionEvents value⟩ := by
  simp only [perform, read]

/-- A read that fails changes nothing but the source. -/
theorem perform_input_of_error (read : Source.read source = (.error failure, rest)) :
    perform ⟨tape, source, sink⟩ .input = ⟨⟨tape, rest, sink⟩, some failure, []⟩ := by
  simp only [perform, read]

end State

end Brainfuck
