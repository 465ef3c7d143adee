import Brainfuck.Proofs.Input.Yield
import Brainfuck.Proofs.Output.Restoration
import Brainfuck.Proofs.Output.Streaming
import Brainfuck.Proofs.Semantics.Traversal

/-!
# Copying the input

A loop that reads and prints cannot ask directly whether there was anything to read: a zero
byte would end it and the end of input would not. The code here adds one before it asks and
takes it away before it prints, so that nothing but the end of input leaves the loop, and
every byte is printed as the character of which it is the code (`traverses_copyLoop`, by
induction on the bytes). Latin-1 turns these characters into the bytes that were read.
-/

namespace Brainfuck

open Writer (Obliging)

/-- Reads and adds one; while the result is not zero, takes one away, prints, and reads and
adds one again. -/
def copyCode : List Char :=
  [',', '+', '[', '-', '.', ',', '+', ']']

/-- The cell of a byte holds its code. -/
theorem toInt_cellOfByte (byte : UInt8) : (cellOfByte (some byte)).toInt = byte.toNat := by
  have bound := byte.toNat_lt
  exact Int64.toInt_ofNat_of_lt (by omega)

/-- One more than the cell of a byte is never zero. -/
theorem cellOfByte_add_one_ne_zero (byte : UInt8) : cellOfByte (some byte) + 1 ≠ 0 := by
  intro zero
  have bound := byte.toNat_lt
  have isLast : cellOfByte (some byte) = endOfInput := by
    rw [← Int64.add_sub_cancel (cellOfByte (some byte)) 1, zero]
    rfl
  have negative := toInt_cellOfByte byte
  rw [isLast] at negative
  change (-1 : Int) = byte.toNat at negative
  omega

/-- The cell of a byte shows the character of which the byte is the code. -/
theorem toChar_cellOfByte (byte : UInt8) :
    (cellOfByte (some byte)).toChar = Codec.ofByte byte := by
  rw [← Cell.toChar_ofInt (Codec.ofByte byte), Codec.toNat_ofByte]
  rfl

/-- One warning for each carriage return among some bytes. -/
def carriageReturns (bytes : List UInt8) : List Event :=
  List.replicate (bytes.count 0x0d) .carriageReturnRead

/-- What is logged when the first of some bytes is read, or the end of input, stands in front
of what is logged for the others. -/
theorem carriageReturns_eq (bytes : List UInt8) :
    receptionEvents (cellOfByte bytes.head?) ++ carriageReturns bytes.tail =
      carriageReturns bytes := by
  cases bytes with
  | nil => rfl
  | cons byte rest =>
      have isReturn : cellOfByte (some byte) = carriageReturn ↔ byte = 0x0d := by
        rw [← Int64.toInt_inj, toInt_cellOfByte, ← UInt8.toNat_inj]
        exact Int.natCast_inj
      rw [List.head?_cons, List.tail_cons, receptionEvents, carriageReturns, carriageReturns]
      by_cases found : byte = 0x0d
      · rw [if_pos (isReturn.mpr found), found, List.count_cons_self, List.replicate_succ]
        rfl
      · rw [if_neg (mt isReturn.mp found), List.count_cons_of_ne found, List.nil_append]

/-- Nothing is asked of the symbols and the states on the way. -/
def Traverses.anyhow {σ τ : Type} : Symbol -> State σ τ -> Prop :=
  fun _ _ => True

section Passage

variable {ρ : Type} [ByteReader ρ] {reader : ρ} {bytes : List UInt8}

/-- Where a copy has come to: the value of the current cell, the reader, and what has been
printed. -/
def copyStage (tape : Tape) (value : Cell) (reader : ρ) (printed : List Char) :
    State ρ Buffer where
  tape := tape.store value
  source := reader
  sink := ⟨String.ofList printed⟩

/-- The next byte is read, or the end of input, and one is added. -/
theorem traverses_readRaised (gives : ByteReader.Gives bytes reader) (tape : Tape) (value : Cell)
    (printed : List Char) :
    ∃ next, ByteReader.Gives bytes.tail next ∧
      Traverses Traverses.anyhow [',', '+'] (copyStage tape value reader printed) 2
        (fun _ => receptionEvents (cellOfByte bytes.head?))
        (copyStage tape (cellOfByte bytes.head? + 1) next printed) := by
  obtain ⟨answer, givesNext⟩ := ByteReader.readCell_of_gives gives
  have read : Source.read reader = (.ok (cellOfByte bytes.head?), (readCell reader).2) :=
    Prod.ext answer rfl
  refine ⟨(readCell reader).2, givesNext, ?_⟩
  have reads : (copyStage tape value reader printed).perform .input =
      ⟨copyStage tape (cellOfByte bytes.head?) (readCell reader).2 printed, none,
        receptionEvents (cellOfByte bytes.head?)⟩ := by
    simp [State.perform, copyStage, read]
  have raises :
      (copyStage tape (cellOfByte bytes.head?) (readCell reader).2 printed).perform .increment =
        ⟨copyStage tape (cellOfByte bytes.head? + 1) (readCell reader).2 printed, none, []⟩ := by
    simp [State.perform, copyStage]
  refine (Traverses.append (.command trivial reads) (.command trivial raises)).congr rfl ?_
  intro place
  exact List.append_nil _

/-- One is taken away, and what is left is printed. -/
theorem traverses_loweredPrinted (byte : UInt8) (tape : Tape) (reader : ρ)
    (printed : List Char) :
    Traverses Traverses.anyhow ['-', '.']
      (copyStage tape (cellOfByte (some byte) + 1) reader printed) 2 silence
      (copyStage tape (cellOfByte (some byte)) reader (printed ++ [Codec.ofByte byte])) := by
  have lowers : (copyStage tape (cellOfByte (some byte) + 1) reader printed).perform .decrement =
      ⟨copyStage tape (cellOfByte (some byte)) reader printed, none, []⟩ := by
    simp only [State.perform, copyStage, Tape.cell_store, Tape.store_store,
      Int64.add_sub_cancel]
  have pushed : (String.ofList printed).push (Codec.ofByte byte) =
      String.ofList (printed ++ [Codec.ofByte byte]) := by
    rw [String.push_eq_append, String.ofList_append]
    rfl
  have prints : (copyStage tape (cellOfByte (some byte)) reader printed).perform .output =
      ⟨copyStage tape (cellOfByte (some byte)) reader (printed ++ [Codec.ofByte byte]), none,
        []⟩ := by
    simp only [State.perform, copyStage, Tape.cell_store, toChar_cellOfByte, Sink.put, pushed]
  exact .append_silent (.command trivial lowers) (.command trivial prints)

/-- Where the first of some bytes has been read, or the end of input, the loop prints them
all and reads those that are left: induction on the bytes. -/
theorem traverses_copyLoop (gives : ByteReader.Gives bytes.tail reader) (tape : Tape)
    (printed : List Char) :
    ∃ last, ByteReader.Gives [] last ∧
      Traverses Traverses.anyhow ['[', '-', '.', ',', '+', ']']
        (copyStage tape (cellOfByte bytes.head? + 1) reader printed) (6 * bytes.length + 1)
        (fun place => carriageReturns bytes.tail ++ exitEvents 4 place)
        (copyStage tape 0 last (printed ++ bytes.map Codec.ofByte)) := by
  induction bytes generalizing reader printed with
  | nil =>
      have balanced : Balanced ['-', '.', ',', '+'] := by decide
      refine ⟨reader, gives, ?_⟩
      rw [List.map_nil, List.append_nil]
      exact .skip balanced trivial (tape.cell_store 0)
  | cons byte rest inductionHypothesis =>
      obtain ⟨next, givesNext, reads⟩ := traverses_readRaised gives tape (cellOfByte (some byte))
        (printed ++ [Codec.ofByte byte])
      obtain ⟨last, givesLast, onward⟩ :=
        inductionHypothesis givesNext (printed ++ [Codec.ofByte byte])
      rw [List.append_assoc, List.singleton_append, ← List.map_cons] at onward
      have round := (traverses_loweredPrinted byte tape reader printed).append reads
      have nonzero : (tape.store (cellOfByte (some byte) + 1)).cell ≠ 0 := by
        rw [Tape.cell_store]
        exact cellOfByte_add_one_ne_zero byte
      refine ⟨last, givesLast, ?_⟩
      refine (Traverses.again trivial nonzero round trivial onward).congr ?_ ?_
      · rw [List.length_cons]
        omega
      · intro place
        rw [silence, List.nil_append, ← List.append_assoc, List.tail_cons, carriageReturns_eq]

/-- Over a buffer and from a blank tape on, the code comes to its end. -/
theorem exists_run_copyCode (gives : ByteReader.Gives bytes reader) {length : Nat}
    (positive : 0 < length) :
    ∃ program fuel last, Program.parse copyCode = .ok program ∧ ByteReader.Gives [] last ∧
      (Machine.start (Tape.blank length positive) reader Buffer.empty).run program fuel =
        ⟨⟨copyStage (Tape.blank length positive) 0 last (bytes.map Codec.ofByte), program.size⟩,
          .finished (6 * bytes.length + 3), carriageReturns bytes ++ [.loopSkipped 2 7]⟩ := by
  have start : (⟨Tape.blank length positive, reader, Buffer.empty⟩ : State ρ Buffer) =
      copyStage (Tape.blank length positive) 0 reader [] := by
    simp [copyStage, Tape.store, Tape.blank, Buffer.empty]
  obtain ⟨next, givesNext, reads⟩ :=
    traverses_readRaised gives (Tape.blank length positive) 0 []
  obtain ⟨last, givesLast, loops⟩ :=
    traverses_copyLoop givesNext (Tape.blank length positive) []
  have whole := reads.append loops
  rw [← start] at whole
  obtain ⟨program, parsed, -, path⟩ := whole.run
  obtain ⟨fuel, ran⟩ := Machine.exists_run_of_path path (by simp [Machine.finished])
  refine ⟨program, fuel, last, parsed, givesLast, ran.trans ?_⟩
  rw [← List.append_assoc, carriageReturns_eq, List.nil_append,
    show 2 + (6 * bytes.length + 1) = 6 * bytes.length + 3 by omega]
  rfl

end Passage

/-- A run that has read some bytes to their end in six steps each and three more, has warned of
each carriage return and left one loop, and has put the tape back. -/
structure Run.Copies {ρ τ : Type} [ByteReader ρ] (bytes : List UInt8) (tape : Tape)
    (run : Run ρ τ) : Prop where
  ending : run.ending = .finished (6 * bytes.length + 3)
  log : run.log = carriageReturns bytes ++ [.loopSkipped 2 7, .finished (6 * bytes.length + 3)]
  source : ByteReader.Gives [] run.machine.state.source
  tape : run.machine.state.tape = tape

/-- Of two interpreters in lock step the first one copies what the other copies. -/
theorem Run.Copies.of_inLockStep {ρ τ υ : Type} [ByteReader ρ] [Sink τ] [Sink υ]
    {Sinks : τ -> υ -> Prop} {left : Interpreter ρ τ} {right : Interpreter ρ υ} {fuel : Nat}
    {bytes : List UInt8} {tape : Tape} (copies : (right.run fuel).Copies bytes tape)
    (lockStep : left.InLockStep right (Machine.Matches Eq Sinks)) :
    (left.run fuel).Copies bytes tape := by
  have sameEnding : (left.run fuel).ending = (right.run fuel).ending := lockStep.endings 0 fuel
  have sameLog : (left.run fuel).log = (right.run fuel).log := lockStep.logs 0 fuel
  obtain ⟨-, sameTape, sameSource, -⟩ :
      Machine.Matches Eq Sinks (left.run fuel).machine (right.run fuel).machine :=
    lockStep.finals 0 fuel
  refine ⟨sameEnding.trans copies.ending, sameLog.trans copies.log, ?_,
    sameTape.trans copies.tape⟩
  rw [sameSource]
  exact copies.source

/-- Over a buffer the code copies the bytes, and the text is the characters of which they are
the codes. -/
theorem exists_copies {ρ : Type} [ByteReader ρ] {bytes : List UInt8} {reader : ρ}
    (gives : ByteReader.Gives bytes reader) {length : Nat} (positive : 0 < length) :
    ∃ (program : Program) (buffered : Interpreter ρ Buffer) (fuel : Nat),
      Program.parse copyCode = .ok program ∧
      buffered = ⟨program, Machine.start (Tape.blank length positive) reader Buffer.empty⟩ ∧
      (buffered.run fuel).Copies bytes (Tape.blank length positive) ∧
      (buffered.run fuel).machine.state.sink.text.toList = bytes.map Codec.ofByte := by
  obtain ⟨program, fuel, last, parsed, givesLast, ran⟩ := exists_run_copyCode gives positive
  refine ⟨program, _, fuel, parsed, rfl, ?_, ?_⟩
  · rw [Interpreter.run, ran]
    refine ⟨rfl, ?_, givesLast, ?_⟩
    · simp [Run.log, Ending.events]
    · simp [copyStage, Tape.store, Tape.blank]
  · rw [Interpreter.run, ran]
    exact String.toList_ofList

/-- For all bytes, from every reader that gives them and on every blank tape, the code copies
them. Over a stream in Latin-1 with an obliging writer, the stream has booked these bytes with
one flush for each. A recorder in the place of the writer, which is not noticed, has noted
that these are the bytes that were accepted and these the flushes. Over a buffer the text is
the characters of which the bytes are the codes. -/
theorem run_copyCode {ρ ω : Type} [ByteReader ρ] [Writer ω] {bytes : List UInt8} {reader : ρ}
    (gives : ByteReader.Gives bytes reader) {length : Nat} (positive : 0 < length) {writer : ω}
    (obliging : Obliging writer) :
    ∃ (streamed : Interpreter ρ (Stream ω)) (buffered : Interpreter ρ Buffer) (fuel : Nat),
      Interpreter.build copyCode (Tape.blank length positive) reader
          (Stream.fresh writer .latin1) = .ok streamed ∧
      Interpreter.build copyCode (Tape.blank length positive) reader Buffer.empty =
          .ok buffered ∧
      (streamed.run fuel).Copies bytes (Tape.blank length positive) ∧
      (streamed.run fuel).machine.state.sink.delivered.toList = bytes ∧
      (streamed.run fuel).machine.state.sink.flushes = bytes.length ∧
      (streamed.run fuel).machine.Matches Eq (Stream.fresh writer .latin1).WatchedSince
        (streamed.watched.run fuel).machine ∧
      (streamed.watched.run fuel).machine.state.sink.writer.accepted = bytes ∧
      (streamed.watched.run fuel).machine.state.sink.writer.flushAnswers =
        List.replicate bytes.length (.ok ()) ∧
      (buffered.run fuel).Copies bytes (Tape.blank length positive) ∧
      (buffered.run fuel).machine.state.sink.text.toList = bytes.map Codec.ofByte := by
  obtain ⟨program, buffered, fuel, parsed, rfl, copies, text⟩ := exists_copies gives positive
  have streams := Interpreter.streamsAs_of_obliging program (Tape.blank length positive) reader
    .latin1 obliging
  have encoded : (bytes.map Codec.ofByte).flatMap Codec.latin1.encode = bytes := by
    rw [List.flatMap_map]
    simp [List.flatMap_singleton']
  have encodes := (streams.booked.finals 0 fuel).state.sink
  have conveys := (streams.conveyed.finals 0 fuel).state.sink
  refine ⟨_, _, fuel, Interpreter.build_of_parse parsed _ _ _,
    Interpreter.build_of_parse parsed _ _ _, copies.of_inLockStep streams.booked, ?_, ?_,
    streams.watched.finals 0 fuel, ?_, ?_, copies, text⟩
  · rw [← encoded, ← text]
    exact encodes.delivered
  · rw [← List.length_map (f := Codec.ofByte), ← text, String.length_toList]
    exact encodes.flushes
  · rw [← encoded, ← text]
    exact conveys.accepted
  · rw [← List.length_map (f := Codec.ofByte), ← text, String.length_toList]
    exact conveys.flushAnswers

/-- The least and the greatest byte and a carriage return, on a single cell and over a writer
that is interrupted first. -/
theorem run_copyCode_extremes :
    ByteReader.Gives [0x00, 0x0d, 0xff] (Bytes.mk [0x00, 0x0d, 0xff]) ∧ 0 < 1 ∧
      Obliging (WriteScript.mk [.failure ⟨.interrupted, ""⟩, .upTo 2] [none]) ∧
      ∃ (streamed : Interpreter Bytes (Stream WriteScript)) (buffered : Interpreter Bytes Buffer)
        (fuel : Nat),
        Interpreter.build copyCode (Tape.blank 1 (by decide)) (Bytes.mk [0x00, 0x0d, 0xff])
          (Stream.fresh (WriteScript.mk [.failure ⟨.interrupted, ""⟩, .upTo 2] [none]) .latin1) =
            .ok streamed ∧
        Interpreter.build copyCode (Tape.blank 1 (by decide)) (Bytes.mk [0x00, 0x0d, 0xff])
          Buffer.empty = .ok buffered ∧
        (streamed.run fuel).Copies [0x00, 0x0d, 0xff] (Tape.blank 1 (by decide)) ∧
        (streamed.run fuel).machine.state.sink.delivered.toList = [0x00, 0x0d, 0xff] ∧
        (streamed.run fuel).machine.state.sink.flushes = 3 ∧
        (streamed.run fuel).machine.Matches Eq
          (Stream.fresh (WriteScript.mk [.failure ⟨.interrupted, ""⟩, .upTo 2] [none])
            .latin1).WatchedSince
          (streamed.watched.run fuel).machine ∧
        (streamed.watched.run fuel).machine.state.sink.writer.accepted = [0x00, 0x0d, 0xff] ∧
        (streamed.watched.run fuel).machine.state.sink.writer.flushAnswers =
          [.ok (), .ok (), .ok ()] ∧
        (buffered.run fuel).Copies [0x00, 0x0d, 0xff] (Tape.blank 1 (by decide)) ∧
        (buffered.run fuel).machine.state.sink.text.toList = ['\x00', '\r', 'ÿ'] := by
  have gives := Bytes.gives_mk [0x00, 0x0d, 0xff]
  have obliging : Obliging (WriteScript.mk [.failure ⟨.interrupted, ""⟩, .upTo 2] [none]) := by
    apply WriteScript.Obliges.obliging
    constructor
    · simp [WriteAnswer.Obliges, IoFailure.isInterruption]
    · simp
  exact ⟨gives, by decide, obliging, run_copyCode gives (by decide) obliging⟩

end Brainfuck
