import Brainfuck.Machine.IoFailure
import Brainfuck.Machine.Tape

/-!
# Sources

Where the input command reads from. A source yields one whole cell per read, or
fails. A byte reader is a source whose cells are its bytes, and -1 at the end of
its input; reads of it that are interrupted are tried again, so an interruption
of a byte reader is never seen. An interruption of any other source is.
-/

namespace Brainfuck

/-- Yields a cell or a failure, and what is left to read. -/
class Source (σ : Type) where
  read : σ -> Except IoFailure Cell × σ

/-- The cell that stands for the end of input. -/
def endOfInput : Cell := -1

/-- Yields one byte, the end of input, or a failure. Only finitely many
interruptions come in a row: each one uses up some of the reader's patience. -/
class ByteReader (ρ : Type) where
  readByte : ρ -> Except IoFailure (Option UInt8) × ρ
  patience : ρ -> Nat
  patience_lt : forall {reader next : ρ} {failure : IoFailure},
    readByte reader = (.error failure, next) -> failure.isInterruption = true ->
      patience next < patience reader

/-- The cell that a read of a byte reader is worth. -/
def cellOfByte : Option UInt8 -> Cell
  | some byte => Int64.ofNat byte.toNat
  | none => endOfInput

/-- Reads a byte as a cell, trying again after every interruption. -/
def readCell {ρ : Type} [ByteReader ρ] (reader : ρ) : Except IoFailure Cell × ρ :=
  match answer : ByteReader.readByte reader with
  | (.ok byte?, next) => (.ok (cellOfByte byte?), next)
  | (.error failure, next) =>
      if interrupted : failure.isInterruption = true then
        have := ByteReader.patience_lt answer interrupted
        readCell next
      else (.error failure, next)
termination_by ByteReader.patience reader

/-- Every byte reader is a source of cells. -/
instance {ρ : Type} [ByteReader ρ] : Source ρ where
  read := readCell

/-- Reads a number of cells in a row, going on after failures. -/
def readCells {σ : Type} [Source σ] : Nat -> σ -> List (Except IoFailure Cell) × σ
  | 0, source => ([], source)
  | count + 1, source =>
      let (answer, next) := Source.read source
      let (answers, last) := readCells count next
      (answer :: answers, last)

/-- A reader of given bytes, which never fails. -/
structure Bytes where
  remaining : List UInt8
  deriving DecidableEq, Repr

instance : ByteReader Bytes where
  readByte
    | ⟨[]⟩ => (.ok none, ⟨[]⟩)
    | ⟨byte :: rest⟩ => (.ok (some byte), ⟨rest⟩)
  patience _ := 0
  patience_lt {reader next failure} answer := by
    rcases reader with ⟨_ | _⟩ <;> simp at answer

/-- A reader that answers as it is told: one answer for each read, and the end
of input when the answers are used up. -/
structure ByteScript where
  answers : List (Except IoFailure (Option UInt8))

instance : ByteReader ByteScript where
  readByte
    | ⟨[]⟩ => (.ok none, ⟨[]⟩)
    | ⟨answer :: rest⟩ => (answer, ⟨rest⟩)
  patience script := script.answers.length
  patience_lt {reader next failure} answer _ := by
    rcases reader with ⟨_ | ⟨first, rest⟩⟩
    · simp at answer
    · simp only [Prod.mk.injEq] at answer
      rw [← answer.2]
      simp

/-- A source of whole cells that answers as it is told: one answer for each
read, and the end of input when the answers are used up. -/
structure CellScript where
  answers : List (Except IoFailure Cell)

instance : Source CellScript where
  read
    | ⟨[]⟩ => (.ok endOfInput, ⟨[]⟩)
    | ⟨answer :: rest⟩ => (answer, ⟨rest⟩)

end Brainfuck
