import Brainfuck.Machine.Stepping
import Brainfuck.Proofs.Output.Restoration
import Brainfuck.Proofs.Output.Streaming

/-!
# The byte forms of cells

A cell is put as the character of which it is the code, or as the replacement character if
there is none, and a codec puts a question mark for what it has no byte for. Both are
decided by the whole number in the cell: `Codec.shown` is the number whose byte form is
written, by codec, and no cell is written as another number that it only agrees with in
its last bits. `step_showsCell` says so of the step at an output command.
-/

namespace Brainfuck

/-- The numbers that are codes of characters: up to the last one, without the surrogates. -/
def IsScalar (value : Int) : Prop :=
  0 ≤ value ∧ value ≤ 0x10ffff ∧ ¬(0xd800 ≤ value ∧ value ≤ 0xdfff)

instance (value : Int) : Decidable (IsScalar value) :=
  inferInstanceAs (Decidable (0 ≤ value ∧ value ≤ 0x10ffff ∧ ¬(0xd800 ≤ value ∧ value ≤ 0xdfff)))

/-- The number whose byte form is written for a cell with this one. -/
def Codec.shown (codec : Codec) (value : Int) : Int :=
  match codec with
  | .ascii => if 0 ≤ value ∧ value ≤ 0x7f then value else 0x3f
  | .latin1 => if 0 ≤ value ∧ value ≤ 0xff then value else 0x3f
  | .utf8 => if IsScalar value then value else 0xfffd

/-- The bytes show the cell. In a codec of one byte for every character they are the byte of
the number that is shown, and in the wide codec they decode to the single character of which
that number is the code. So cells that are not shown alike do not have the same bytes. -/
structure Codec.Shows (codec : Codec) (cell : Cell) (bytes : List UInt8) : Prop where
  narrow : codec ≠ .utf8 ->
    bytes.map (fun byte => (byte.toNat : Int)) = [codec.shown cell.toInt]
  wide : codec = .utf8 -> ∃ character : Char,
    bytes.toByteArray.utf8Decode? = some #[character] ∧
      (character.toNat : Int) = codec.shown cell.toInt

/-- A number is the code of a character if it is not negative and a valid one. -/
theorem isScalar_iff {value : Int} : IsScalar value ↔ 0 ≤ value ∧ value.toNat.isValidChar := by
  unfold IsScalar Nat.isValidChar
  omega

/-- The character of a cell has the number in the cell as its code, or replaces it. -/
theorem Cell.toNat_toChar (cell : Cell) :
    (cell.toChar.toNat : Int) = if IsScalar cell.toInt then cell.toInt else 0xfffd := by
  unfold toChar
  by_cases scalar : IsScalar cell.toInt
  · obtain ⟨natural, valid⟩ := isScalar_iff.mp scalar
    rw [if_pos ⟨natural, valid⟩, if_pos scalar, Char.ofNat, dif_pos valid]
    exact Int.toNat_of_nonneg natural
  · rw [if_neg (mt isScalar_iff.mpr scalar), if_neg scalar]
    rfl

namespace Codec

/-- In a codec of one byte for every character the byte of a cell is its number, up to the
limit of the codec, or that of the question mark. -/
theorem SingleByte.toNat_narrow_toChar {codec : Codec} {limit : Nat}
    (single : SingleByte codec limit) (cell : Cell) :
    ((narrow limit cell.toChar).toNat : Int) =
      if 0 ≤ cell.toInt ∧ cell.toInt ≤ limit then cell.toInt else 0x3f := by
  have code := cell.toNat_toChar
  have small := single.limit_le
  rw [single.toNat_narrow]
  by_cases within : 0 ≤ cell.toInt ∧ cell.toInt ≤ limit
  · have scalar : IsScalar cell.toInt := by
      unfold IsScalar
      omega
    rw [if_pos scalar] at code
    rw [if_pos within, if_pos (by omega), code]
  · -- A scalar value beyond the limit and the replacement character are put alike.
    have beyond : ¬cell.toChar.toNat ≤ limit := by
      by_cases scalar : IsScalar cell.toInt
      · rw [if_pos scalar] at code
        omega
      · rw [if_neg scalar] at code
        omega
    rw [if_neg within, if_neg beyond]
    rfl

/-- The bytes of a cell show it. -/
theorem shows_encode (codec : Codec) (cell : Cell) :
    codec.Shows cell (codec.encode cell.toChar) where
  narrow := by
    intro isNarrow
    cases codec with
    | ascii => exact congrArg (fun value => [value]) (SingleByte.ascii.toNat_narrow_toChar cell)
    | latin1 => exact congrArg (fun value => [value]) (SingleByte.latin1.toNat_narrow_toChar cell)
    | utf8 => exact absurd rfl isNarrow
  wide := by
    rintro rfl
    refine ⟨cell.toChar, ?_, cell.toNat_toChar⟩
    have decoded := utf8Decode?_encodeText [cell.toChar]
    rwa [encodeText_cons, encodeText, List.flatMap_nil, List.append_nil] at decoded

/-- The same bytes show the same number. -/
theorem Shows.shown_eq {codec : Codec} {first second : Cell} {bytes : List UInt8}
    (shows : codec.Shows first bytes) (showsToo : codec.Shows second bytes) :
    codec.shown first.toInt = codec.shown second.toInt := by
  by_cases isWide : codec = .utf8
  · obtain ⟨character, decoded, code⟩ := shows.wide isWide
    obtain ⟨other, decodedToo, codeToo⟩ := showsToo.wide isWide
    rw [decoded, Option.some_inj] at decodedToo
    cases decodedToo
    rw [← code, ← codeToo]
  · have same := (shows.narrow isWide).symm.trans (showsToo.narrow isWide)
    exact (List.cons.inj same).1

/-- In the wide codec the codes of characters are told apart by their bytes. -/
theorem Shows.eq_of_isScalar {first second : Cell} {bytes : List UInt8}
    (shows : utf8.Shows first bytes) (showsToo : utf8.Shows second bytes)
    (scalar : IsScalar first.toInt) (scalarToo : IsScalar second.toInt) : first = second := by
  have same := shows.shown_eq showsToo
  rw [shown, if_pos scalar, shown, if_pos scalarToo] at same
  exact Int64.toInt_inj.mp same

end Codec

open Writer (Obliging)

variable {σ ω : Type} [Source σ] [Writer ω]

/-- At an output command, over a stream whose writer takes everything, a step succeeds
whatever the current cell is: it delivers the bytes of this cell, flushes once, and changes
nothing else. With a recorder in the place of the writer, which is not noticed, the step makes
requests that accept just these bytes, and then a single flush. The bytes show the cell. They
are those of another cell only if both are shown as the same number, so that codes of
characters have their own bytes in the wide codec. -/
theorem step_showsCell {program : Program} {machine : Machine σ (Stream ω)}
    (here : program.get? machine.now = some (.command .output))
    (obliging : Obliging machine.state.sink.writer) :
    ∃ (bytes : List UInt8) (flushed : ω) (requests : List Writer.Request),
      machine.step program =
        ⟨⟨⟨machine.state.tape, machine.state.source,
            ⟨machine.state.sink.codec, flushed, machine.state.sink.delivered ++ bytes,
              machine.state.sink.flushes + 1⟩⟩,
          machine.now + 1⟩, none, []⟩ ∧
      machine.watched.step program =
        ⟨⟨⟨machine.state.tape, machine.state.source,
            ⟨machine.state.sink.codec, ⟨flushed, requests⟩,
              machine.state.sink.delivered ++ bytes, machine.state.sink.flushes + 1⟩⟩,
          machine.now + 1⟩, none, []⟩ ∧
      PutAttempt.ToldBy requests ⟨bytes, none⟩ ∧
      requests.flatMap Writer.Request.accepted = bytes ∧
      requests.filterMap Writer.Request.flushAnswer? = [.ok ()] ∧
      machine.state.sink.codec.Shows machine.state.tape.cell bytes ∧
      ∀ other : Cell, machine.state.sink.codec.encode other.toChar = bytes ->
        machine.state.sink.codec.shown other.toInt =
          machine.state.sink.codec.shown machine.state.tape.cell.toInt ∧
        (machine.state.sink.codec = .utf8 -> IsScalar other.toInt ->
          IsScalar machine.state.tape.cell.toInt -> other = machine.state.tape.cell) := by
  rcases machine with ⟨⟨tape, source, stream⟩, now⟩
  obtain ⟨flushed, requests, told, put, putWatched⟩ :=
    Stream.put_watched_of_obliging obliging tape.cell.toChar
  have shows := stream.codec.shows_encode tape.cell
  refine ⟨_, flushed, requests, Machine.step_of_performed here (State.perform_output put),
    Machine.step_of_performed here (State.perform_output putWatched), told,
    told.flatMap_accepted, told.filterMap_flushAnswer?, shows, ?_⟩
  intro other same
  have showsOther := stream.codec.shows_encode other
  rw [same] at showsOther
  refine ⟨showsOther.shown_eq shows, ?_⟩
  intro isWide scalar scalarHere
  rw [isWide] at shows showsOther
  exact showsOther.eq_of_isScalar shows scalar scalarHere

/-- A cell that agrees with the code of a letter in its last four bytes is put as the
replacement character, over a writer that takes one byte at first. -/
theorem step_showsCell_congruent :
    (Program.mk #[.command .output]).get? 0 = some (.command .output) ∧
      Obliging (WriteScript.mk [.upTo 1] [none]) ∧
      ∃ (bytes : List UInt8) (flushed : WriteScript) (requests : List Writer.Request),
        Machine.step (Program.mk #[.command .output])
            (Machine.start ⟨#[0x100000041, 7], 0, by decide⟩ (Bytes.mk [])
              (Stream.fresh (WriteScript.mk [.upTo 1] [none]) .utf8)) =
          ⟨⟨⟨⟨#[0x100000041, 7], 0, by decide⟩, Bytes.mk [],
            ⟨.utf8, flushed, (#[] : Array UInt8) ++ bytes, 1⟩⟩, 1⟩, none, []⟩ ∧
        Machine.step (Program.mk #[.command .output])
            (Machine.start ⟨#[0x100000041, 7], 0, by decide⟩ (Bytes.mk [])
              (Stream.fresh (WriteScript.mk [.upTo 1] [none]) .utf8)).watched =
          ⟨⟨⟨⟨#[0x100000041, 7], 0, by decide⟩, Bytes.mk [],
            ⟨.utf8, ⟨flushed, requests⟩, (#[] : Array UInt8) ++ bytes, 1⟩⟩, 1⟩, none, []⟩ ∧
        PutAttempt.ToldBy requests ⟨bytes, none⟩ ∧
        requests.flatMap Writer.Request.accepted = bytes ∧
        requests.filterMap Writer.Request.flushAnswer? = [.ok ()] ∧
        Codec.utf8.Shows 0x100000041 bytes ∧
        ∀ other : Cell, Codec.utf8.encode other.toChar = bytes ->
          Codec.utf8.shown other.toInt = 0xfffd := by
  have obliging : Obliging (WriteScript.mk [.upTo 1] [none]) := by
    apply WriteScript.Obliges.obliging
    constructor
    · simp [WriteAnswer.Obliges]
    · simp
  let machine : Machine Bytes (Stream WriteScript) :=
    Machine.start ⟨#[0x100000041, 7], 0, by decide⟩ (Bytes.mk [])
      (Stream.fresh (WriteScript.mk [.upTo 1] [none]) .utf8)
  have here : (Program.mk #[.command .output]).get? machine.now = some (.command .output) := rfl
  obtain ⟨bytes, flushed, requests, stepped, steppedWatched, told, accepted, flushes, shows,
    apart⟩ := step_showsCell here obliging
  exact ⟨here, obliging, bytes, flushed, requests, stepped, steppedWatched, told, accepted,
    flushes, shows, fun other same => (apart other same).1⟩

end Brainfuck
