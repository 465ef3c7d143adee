import Brainfuck.Proofs.Encoding.Passage

/-!
# Encoded texts print themselves

The code of a text is balanced and never asks for input, and on every tape with
room for two cells its run succeeds with nothing but the text in the sink.
-/

namespace Brainfuck.Encoding

/-- No character of the code of a character asks for input. -/
theorem comma_not_mem_characterCode (previous current : Nat) :
    ',' ∉ characterCode previous current := by
  unfold characterCode travelCode loopCode Heading.between
  split <;> split <;> simp

/-- The code of a text never asks for input. -/
theorem comma_not_mem_encodeFrom (previous : Nat) (text : List Char) :
    ',' ∉ encodeFrom previous text := by
  induction text generalizing previous with
  | nil => simp
  | cons character rest inductionHypothesis =>
      rw [encodeFrom_cons, List.mem_append, not_or]
      exact ⟨comma_not_mem_characterCode previous character.toNat,
        inductionHypothesis character.toNat⟩

/-- A program whose code has no comma has no instruction that reads. -/
theorem get?_ne_input {program : Program} {code : List Char} (noComma : ',' ∉ code)
    (symbols : program.instructions.toList.map Instruction.symbol = Symbol.ofCode code)
    (place : Nat) : program.get? place ≠ some (.command .input) := by
  intro here
  have member : Instruction.command .input ∈ program.instructions.toList :=
    Array.mem_toList_iff.mpr (Array.mem_of_getElem? here)
  have symbol : Symbol.command .input ∈ Symbol.ofCode code :=
    symbols ▸ List.mem_map_of_mem member
  obtain ⟨character, inCode, means⟩ := List.mem_filterMap.mp symbol
  obtain rfl := Symbol.ofChar?_eq_some_iff.mp means
  exact noComma inCode

variable {σ : Type}

/-- What a run of the code of a text leaves behind: the text in the sink, the
source as it was, and a tape that is zero again but for the code of the last
character in its first cell. -/
structure Prints (text : List Char) (length : Nat) (source : σ) (final : State σ Buffer) :
    Prop where
  sink : final.sink = ⟨String.ofList text⟩
  source : final.source = source
  pointer : final.tape.pointer = 0
  cells : final.tape.cells.toList =
    Int64.ofNat ((text.map Char.toNat).getLastD 0) :: List.replicate (length - 1) 0

/-- Where the passage through a text ends, the text has been printed. -/
theorem prints_stage (room : Nat) (source : σ) (text : List Char) :
    Prints text (room + 2) source
      (stage room source text ((text.map Char.toNat).getLastD 0 : Nat) 0 0) where
  sink := rfl
  source := rfl
  pointer := rfl
  cells := by
    simp [stage, Tape.twoCells, List.replicate_succ, Int64.ofInt_eq_ofNat]

variable [Source σ]

/-- The code of a text has a program without any instruction that reads. On every
tape of at least two cells and before every source, its run succeeds and has
printed the text. -/
theorem run_encode (text : List Char) {length : Nat} (roomForTwo : 2 ≤ length) (source : σ) :
    ∃ interpreter : Interpreter σ Buffer,
      Program.parse (encode text) = .ok interpreter.program ∧
      Interpreter.build (encode text) (.blank length (Nat.lt_of_lt_of_le (by decide) roomForTwo))
        source .empty = .ok interpreter ∧
      (∀ place, interpreter.program.get? place ≠ some (.command .input)) ∧
      ∃ steps final, interpreter.Succeeds steps final ∧ Prints text length source final.state := by
  obtain ⟨room, rfl⟩ := Nat.exists_eq_add_of_le' roomForTwo
  obtain ⟨program, parsed, symbols, path⟩ := (traverses_encode room source text).run
  have noInput := get?_ne_input (comma_not_mem_encodeFrom 0 text) symbols
  obtain ⟨fuel, ran⟩ := Machine.exists_run_of_path path (by simp [Machine.finished])
  have built := Interpreter.build_of_parse parsed (.blank (room + 2) (Nat.succ_pos _)) source
    Buffer.empty
  refine ⟨_, parsed, built, noInput, textSteps 0 text, _, ⟨fuel, ?_, rfl⟩, ?_⟩
  · rw [Interpreter.run, ran]
  · rw [Interpreter.run, ran]
    exact prints_stage room source text

/-- A rising and a falling way, on a tape with no cell to spare and before a source
that only fails. -/
theorem run_encode_falling :
    2 ≤ 2 ∧ ∃ interpreter : Interpreter CellScript Buffer,
      Program.parse (encode ['é', 'A', 'B', '\x00']) = .ok interpreter.program ∧
      Interpreter.build (encode ['é', 'A', 'B', '\x00']) (.blank 2 (by decide))
        (CellScript.mk [.error .writeZero]) .empty = .ok interpreter ∧
      (∀ place, interpreter.program.get? place ≠ some (.command .input)) ∧
      ∃ steps final, interpreter.Succeeds steps final ∧
        Prints ['é', 'A', 'B', '\x00'] 2 (CellScript.mk [.error .writeZero]) final.state :=
  ⟨by decide, run_encode ['é', 'A', 'B', '\x00'] (by decide) _⟩

end Brainfuck.Encoding
