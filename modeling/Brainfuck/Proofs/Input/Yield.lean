import Brainfuck.Proofs.Code.Tree
import Brainfuck.Proofs.Input.Scripts
import Brainfuck.Proofs.Input.Surfacing
import Brainfuck.Proofs.Semantics.Calls

/-!
# What a source yields

A reader `Gives` some bytes if it answers requests for one byte with these, in order,
and then with the end of input, but for interruptions in between; that no more than
finitely many come in a row is what every reader promises. A source `Yields` some cells
if its reads are worth these and then the end of input. The reads of a reader pass over
its interruptions and nothing else, so it yields the bytes that it gives; and of two
sources that yield the same no program can tell one from the other:
`build_answersAlike_of_gives`.
-/

namespace Brainfuck

/-- Answers that succeed with the first values of a series. -/
def successes {α : Type} (value : Nat -> α) (count : Nat) : List (Except IoFailure α) :=
  (List.range count).map fun place => .ok (value place)

/-- The first value of the series stands in front of the others. -/
theorem successes_succ {α : Type} (value : Nat -> α) (count : Nat) :
    successes value (count + 1) =
      .ok (value 0) :: successes (fun place => value (place + 1)) count := by
  rw [successes, successes, List.range_succ_eq_map, List.map_cons, List.map_map]
  rfl

namespace ByteReader

/-- Some bytes in order, and the end of input behind the last of them. -/
def given (bytes : List UInt8) (count : Nat) : List (Except IoFailure (Option UInt8)) :=
  successes (fun place => bytes[place]?) count

/-- The first of some bytes, or the end of input, stands in front of the others. -/
theorem given_succ (bytes : List UInt8) (count : Nat) :
    given bytes (count + 1) = .ok bytes.head? :: given bytes.tail count := by
  rw [given, given, successes_succ]
  simp only [List.head?_eq_getElem?, List.getElem?_tail]

variable {ρ : Type} [ByteReader ρ]

/-- The answers to a number of requests for one byte, going on after failures. -/
def answers : Nat -> ρ -> List (Except IoFailure (Option UInt8))
  | 0, _ => []
  | count + 1, reader => (readByte reader).1 :: answers count (readByte reader).2

/-- However often the reader is asked, it answers with these bytes in order and with the
end of input from then on, but for interruptions in between. -/
def Gives (bytes : List UInt8) (reader : ρ) : Prop :=
  ∀ count, ∃ number,
    withoutFailures IoFailure.isInterruption (answers count reader) = given bytes number

/-- A reader is interrupted and then gives what it would have given, or it gives the first
byte and then the others. -/
inductive Gives.Next (Onward : List UInt8 -> ρ -> Prop) (bytes : List UInt8) :
    Except IoFailure (Option UInt8) × ρ -> Prop where
  | interrupted {failure : IoFailure} {next : ρ} (interruption : failure.isInterruption = true)
      (onward : Onward bytes next) : Next Onward bytes (.error failure, next)
  | given {next : ρ} (onward : Onward bytes.tail next) : Next Onward bytes (.ok bytes.head?, next)

/-- The next request is answered so by a reader that gives some bytes. -/
theorem Gives.next {bytes : List UInt8} {reader : ρ} (gives : Gives bytes reader) :
    Gives.Next Gives bytes (readByte reader) := by
  rcases answer : readByte reader with ⟨failure | byte?, next⟩
  · have later : ∀ count, answers (count + 1) reader = .error failure :: answers count next := by
      intro count
      rw [answers, answer]
    -- A failure that is no interruption stays among the answers, which all succeed.
    cases interruption : failure.isInterruption with
    | true =>
        refine .interrupted interruption fun count => ?_
        rw [← withoutFailures_dropped interruption, ← later]
        exact gives (count + 1)
    | false =>
        obtain ⟨_ | number, same⟩ := gives 1
        · rw [later, withoutFailures_kept interruption] at same
          exact absurd same (List.cons_ne_nil _ _)
        · rw [later, withoutFailures_kept interruption, given_succ] at same
          simp at same
  · have later : ∀ count, ∃ number, .ok byte? :: withoutFailures IoFailure.isInterruption
        (answers count next) = .ok bytes.head? :: given bytes.tail number := by
      intro count
      obtain ⟨_ | number, same⟩ := gives (count + 1)
      · rw [answers, answer, withoutFailures_ok] at same
        exact absurd same (List.cons_ne_nil _ _)
      · rw [answers, answer, withoutFailures_ok, given_succ] at same
        exact ⟨number, same⟩
    obtain ⟨_, first⟩ := later 0
    obtain rfl : byte? = bytes.head? := by simpa using (List.cons.inj first).1
    refine .given fun count => ?_
    obtain ⟨number, same⟩ := later count
    exact ⟨number, (List.cons.inj same).2⟩

/-- A reader gives some bytes if something holds of both that its answers keep true. -/
theorem Gives.of_invariant (Invariant : List UInt8 -> ρ -> Prop) {bytes : List UInt8} {reader : ρ}
    (initially : Invariant bytes reader)
    (next : ∀ {bytes reader}, Invariant bytes reader ->
      Gives.Next Invariant bytes (readByte reader)) : Gives bytes reader := by
  intro count
  induction count generalizing bytes reader with
  | zero => exact ⟨0, rfl⟩
  | succ count inductionHypothesis =>
      have onward := next initially
      rw [answers]
      generalize readByte reader = answer at onward
      cases onward with
      | interrupted interruption invariant =>
          obtain ⟨number, same⟩ := inductionHypothesis invariant
          exact ⟨number, (withoutFailures_dropped interruption _).trans same⟩
      | given invariant =>
          obtain ⟨number, same⟩ := inductionHypothesis invariant
          exact ⟨number + 1, by rw [withoutFailures_ok, same, given_succ]⟩

/-- A read passes over interruptions, to the first byte or to the end of input. -/
theorem readCell_of_gives {bytes : List UInt8} {reader : ρ} (gives : Gives bytes reader) :
    (readCell reader).1 = .ok (cellOfByte bytes.head?) ∧
      Gives bytes.tail (readCell reader).2 := by
  fun_induction readCell reader with
  | case1 reader byte? next answer =>
      have onward := gives.next
      rw [answer] at onward
      cases onward with
      | given givesRest => exact ⟨rfl, givesRest⟩
  | case2 reader failure next answer interrupted less inductionHypothesis =>
      have onward := gives.next
      rw [answer] at onward
      cases onward with
      | interrupted _ givesSame => exact inductionHypothesis givesSame
  | case3 reader failure next answer lasting =>
      have onward := gives.next
      rw [answer] at onward
      cases onward with
      | interrupted interruption => exact absurd interruption lasting

/-- No read of a reader fails by an interruption. -/
theorem isInterruption_of_readCell {reader : ρ} {failure : IoFailure}
    (fails : (readCell reader).1 = .error failure) : failure.isInterruption = false := by
  fun_induction readCell reader with
  | case1 => simp at fails
  | case2 reader found next answer interrupted less inductionHypothesis =>
      exact inductionHypothesis fails
  | case3 reader found next answer lasting =>
      obtain rfl : found = failure := by simpa using fails
      simpa using lasting

end ByteReader

/-- Plain bytes are given as they are. -/
theorem Bytes.gives_mk (bytes : List UInt8) : ByteReader.Gives bytes (Bytes.mk bytes) := by
  apply ByteReader.Gives.of_invariant (fun bytes reader => reader = Bytes.mk bytes) rfl
  rintro (_ | ⟨byte, rest⟩) reader rfl
  · exact .given rfl
  · exact .given rfl

namespace Source

variable {σ : Type} [Source σ]

/-- Some cells in order, and the end of input behind the last of them. -/
def yielded (cells : List Cell) (count : Nat) : List (Except IoFailure Cell) :=
  successes (fun place => cells.getD place endOfInput) count

/-- The first of some cells, or the end of input, stands in front of the others. -/
theorem yielded_succ (cells : List Cell) (count : Nat) :
    yielded cells (count + 1) = .ok (cells.headD endOfInput) :: yielded cells.tail count := by
  rw [yielded, yielded, successes_succ]
  cases cells with
  | nil => rfl
  | cons cell rest => rfl

/-- However many reads are made in a row, they are worth these cells in order, and the
end of input from then on. -/
def Yields (cells : List Cell) (source : σ) : Prop :=
  ∀ count, (readCells count source).1 = yielded cells count

/-- The next read of a source that yields some cells is worth the first of them, and what
is left yields the others. -/
theorem Yields.next {cells : List Cell} {source : σ} (yields : Yields cells source) :
    (read source).1 = .ok (cells.headD endOfInput) ∧ Yields cells.tail (read source).2 := by
  have split : ∀ count, (read source).1 :: (readCells count (read source).2).1 =
      .ok (cells.headD endOfInput) :: yielded cells.tail count := by
    intro count
    rw [← yielded_succ]
    exact yields (count + 1)
  constructor
  · exact (List.cons.inj (split 0)).1
  · intro count
    exact (List.cons.inj (split count)).2

/-- A source yields some cells if something holds of both that its reads keep true. -/
theorem yields_of_invariant (Invariant : List Cell -> σ -> Prop) {cells : List Cell} {source : σ}
    (initially : Invariant cells source)
    (next : ∀ {cells source}, Invariant cells source ->
      (read source).1 = .ok (cells.headD endOfInput) ∧ Invariant cells.tail (read source).2) :
    Yields cells source := by
  intro count
  induction count generalizing cells source with
  | zero => rfl
  | succ count inductionHypothesis =>
      obtain ⟨first, others⟩ := next initially
      rw [yielded_succ, ← first, ← inductionHypothesis others]
      rfl

/-- Two sources, of different kinds perhaps, that yield the same. -/
def YieldAlike {ρ : Type} [Source ρ] (left : σ) (right : ρ) : Prop :=
  ∃ cells, Yields cells left ∧ Yields cells right

/-- Sources that yield the same answer a read alike, and go on yielding the same. -/
theorem YieldAlike.read {ρ : Type} [Source ρ] {left : σ} {right : ρ}
    (alike : YieldAlike left right) :
    AnswersAlike YieldAlike (read left) (Source.read right) := by
  obtain ⟨cells, yieldsLeft, yieldsRight⟩ := alike
  obtain ⟨firstLeft, othersLeft⟩ := yieldsLeft.next
  obtain ⟨firstRight, othersRight⟩ := yieldsRight.next
  exact ⟨firstLeft.trans firstRight.symm, cells.tail, othersLeft, othersRight⟩

end Source

/-- A script of whole cells that never fails yields its answers. -/
theorem CellScript.yields_mk (cells : List Cell) :
    Source.Yields cells (CellScript.mk (cells.map .ok)) := by
  apply Source.yields_of_invariant
    (fun cells source => source = CellScript.mk (cells.map .ok)) rfl
  rintro (_ | ⟨cell, rest⟩) source rfl
  · exact ⟨rfl, rfl⟩
  · exact ⟨rfl, rfl⟩

/-- A script of bytes that fails by nothing but interruptions gives its other answers. -/
theorem ByteScript.gives_mk {bytes : List UInt8}
    {answers : List (Except IoFailure (Option UInt8))}
    (smooth : withoutFailures IoFailure.isInterruption answers =
      bytes.map fun byte => .ok (some byte)) :
    ByteReader.Gives bytes (ByteScript.mk answers) := by
  apply ByteReader.Gives.of_invariant (fun bytes reader =>
    withoutFailures IoFailure.isInterruption reader.answers =
      bytes.map fun byte => .ok (some byte)) smooth
  rintro bytes ⟨_ | ⟨failure | byte?, rest⟩⟩ smooth
  · obtain rfl : bytes = [] := List.map_eq_nil_iff.mp smooth.symm
    exact .given smooth
  · cases interruption : failure.isInterruption with
    | true =>
        rw [withoutFailures_dropped interruption] at smooth
        exact .interrupted interruption smooth
    | false =>
        rw [withoutFailures_kept interruption] at smooth
        cases bytes <;> simp at smooth
  · obtain ⟨byte, others, rfl, same, smoothRest⟩ := List.map_eq_cons_iff.mp smooth.symm
    obtain rfl := Except.ok.inj same
    exact .given smoothRest.symm

/-- The cells that bytes are worth. -/
def cellsOfBytes (bytes : List UInt8) : List Cell :=
  bytes.map fun byte => Int64.ofNat byte.toNat

/-- Bytes are worth cells from 0 to 255, none of which is the end of input. -/
theorem bounds_of_mem_cellsOfBytes {bytes : List UInt8} {cell : Cell}
    (among : cell ∈ cellsOfBytes bytes) : 0 ≤ cell ∧ cell ≤ 255 := by
  obtain ⟨byte, -, rfl⟩ := List.mem_map.mp among
  have small : byte.toNat < 256 := byte.toNat_lt
  have value : (Int64.ofNat byte.toNat).toInt = byte.toNat :=
    Int64.toInt_ofNat_of_lt (by omega)
  have last : (255 : Int64).toInt = 255 := rfl
  rw [Int64.le_iff_toInt_le, Int64.le_iff_toInt_le, value, last, Int64.toInt_zero]
  omega

/-- A reader yields the bytes that it gives. -/
theorem ByteReader.Gives.yields {ρ : Type} [ByteReader ρ] {bytes : List UInt8} {reader : ρ}
    (gives : ByteReader.Gives bytes reader) : Source.Yields (cellsOfBytes bytes) reader := by
  apply Source.yields_of_invariant
    (fun cells reader => ∃ bytes, cells = cellsOfBytes bytes ∧ ByteReader.Gives bytes reader)
    ⟨bytes, rfl, gives⟩
  rintro _ reader ⟨bytes, rfl, gives⟩
  obtain ⟨first, others⟩ := ByteReader.readCell_of_gives gives
  cases bytes with
  | nil => exact ⟨first, [], rfl, others⟩
  | cons byte rest => exact ⟨first, rest, rfl, others⟩

/-- Interpreters that differ only in their sources answer all calls alike, if these
yield the same. -/
theorem Interpreter.answersAlike_of_yieldAlike {σ ρ τ : Type} [Source σ] [Source ρ] [Sink τ]
    {left : σ} {right : ρ} (alike : Source.YieldAlike left right) (program : Program)
    (tape : Tape) (sink : τ) :
    AnswersAlike (Interpreter.mk program (Machine.start tape left sink))
      (Interpreter.mk program (Machine.start tape right sink))
      (Machine.Matches Source.YieldAlike Eq) := by
  apply answersAlike_of_lockStep
  · apply Machine.lockStep_of_answers
    · intro left right alike
      exact alike.read
    · rintro left _ character rfl
      exact ⟨rfl, rfl⟩
  · exact ⟨rfl, rfl, alike, rfl⟩

/-- However a reader delivers its bytes, it yields the cells that they are worth. For
every balanced code, every tape and every sink, whatever steps and runs are asked for:
an interpreter over this reader, one over the plain bytes, and one over a source that
yields the cells directly answer alike, and always stand at the same place with the same
tape and the same sink. The failures of any source surface, interruptions among them,
but no read of a byte reader fails by an interruption. -/
theorem build_answersAlike_of_gives {ρ δ τ : Type} [ByteReader ρ] [Source δ] [Sink τ]
    {code : List Char} (balanced : Balanced code) (tape : Tape) (sink : τ) {bytes : List UInt8}
    {reader : ρ} (gives : ByteReader.Gives bytes reader) {direct : δ}
    (yields : Source.Yields (cellsOfBytes bytes) direct) :
    ((∀ cell ∈ cellsOfBytes bytes, 0 ≤ cell ∧ cell ≤ 255) ∧
        Source.Yields (cellsOfBytes bytes) reader) ∧
      (∃ delivered plain yielded,
        Interpreter.build code tape reader sink = .ok delivered ∧
          Interpreter.build code tape (Bytes.mk bytes) sink = .ok plain ∧
          Interpreter.build code tape direct sink = .ok yielded ∧
          delivered.AnswersAlike plain (Machine.Matches Source.YieldAlike Eq) ∧
          delivered.AnswersAlike yielded (Machine.Matches Source.YieldAlike Eq)) ∧
      (∀ {program : Program} {machine : Machine δ τ} {failure : IoFailure},
        machine.MeetsFailure program failure -> machine.Surfaces program failure) ∧
      ∀ {program : Program} {machine : Machine ρ τ} {failure : IoFailure},
        machine.MeetsFailure program failure -> failure.isInterruption = false := by
  obtain ⟨block, rfl⟩ := balanced.exists_block
  have parsed := block.parse_code
  refine ⟨⟨?_, gives.yields⟩, ?_, ?_, ?_⟩
  · intro cell among
    exact bounds_of_mem_cellsOfBytes among
  · refine ⟨_, _, _, Interpreter.build_of_parse parsed tape reader sink,
      Interpreter.build_of_parse parsed tape (Bytes.mk bytes) sink,
      Interpreter.build_of_parse parsed tape direct sink, ?_, ?_⟩
    · apply Interpreter.answersAlike_of_yieldAlike
      exact ⟨cellsOfBytes bytes, gives.yields, (Bytes.gives_mk bytes).yields⟩
    · apply Interpreter.answersAlike_of_yieldAlike
      exact ⟨cellsOfBytes bytes, gives.yields, yields⟩
  · intro program machine failure meets
    exact meets.surfaces
  · intro program machine failure meets
    exact ByteReader.isInterruption_of_readCell meets.answer

/-- A loop that copies, over a reader that is interrupted before each of its bytes and
before the end of input, and a read of a source that is interrupted as well. -/
theorem build_answersAlike_of_gives_copying :
    Source.Yields [65, 255]
        (ByteScript.mk [.error ⟨.interrupted, ""⟩, .ok (some 65), .error ⟨.interrupted, ""⟩,
          .error ⟨.interrupted, ""⟩, .ok (some 255), .error ⟨.interrupted, ""⟩]) ∧
      (∃ delivered plain yielded,
        Interpreter.build [',', '[', '.', ',', ']'] .standard
            (ByteScript.mk [.error ⟨.interrupted, ""⟩, .ok (some 65), .error ⟨.interrupted, ""⟩,
              .error ⟨.interrupted, ""⟩, .ok (some 255), .error ⟨.interrupted, ""⟩])
            Buffer.empty = .ok delivered ∧
          Interpreter.build [',', '[', '.', ',', ']'] .standard (Bytes.mk [65, 255])
            Buffer.empty = .ok plain ∧
          Interpreter.build [',', '[', '.', ',', ']'] .standard (CellScript.mk [.ok 65, .ok 255])
            Buffer.empty = .ok yielded ∧
          delivered.AnswersAlike plain (Machine.Matches Source.YieldAlike Eq) ∧
          delivered.AnswersAlike yielded (Machine.Matches Source.YieldAlike Eq)) ∧
      Machine.Surfaces ⟨#[.command .input]⟩
        (Machine.start .standard (CellScript.mk [.error ⟨.interrupted, ""⟩]) Buffer.empty)
        ⟨.interrupted, ""⟩ := by
  have balanced : Balanced [',', '[', '.', ',', ']'] := by decide
  have gives : ByteReader.Gives [65, 255]
      (ByteScript.mk [.error ⟨.interrupted, ""⟩, .ok (some 65), .error ⟨.interrupted, ""⟩,
        .error ⟨.interrupted, ""⟩, .ok (some 255), .error ⟨.interrupted, ""⟩]) :=
    ByteScript.gives_mk rfl
  obtain ⟨⟨-, yields⟩, alike, surface, -⟩ := build_answersAlike_of_gives balanced .standard
    Buffer.empty gives (CellScript.yields_mk [65, 255])
  exact ⟨yields, alike, surface ⟨rfl, rfl⟩⟩

end Brainfuck
