import Brainfuck.CommandLine.Tool
import Brainfuck.Proofs.CommandLine.CodecChoice
import Brainfuck.Proofs.Encoding.Passage
import Brainfuck.Proofs.Output.ByteForms
import Brainfuck.Proofs.Output.Delivery
import Brainfuck.Proofs.Semantics.LockStep

/-!
# From one process to another

A text that is given to one process of the tool to be encoded comes out of another
one that runs the code. Two things keep the code from being mistaken for something
else on its way: no code of a text begins with a hyphen, and running it takes no
input. What comes out are the bytes of the text in the codec of the second process,
which are the bytes of the text itself in the wide codec, and in the others for texts
within ASCII: `respond_encode_decode`.
-/

namespace Brainfuck

/-- A stream over a spool that has kept the encoded characters of a buffer. -/
structure Stream.Spools (codec : Codec) (stream : Stream Spool) (buffer : Buffer) : Prop where
  codec_eq : stream.codec = codec
  written : stream.writer.written.toList = buffer.text.toList.flatMap codec.encode

/-- A character is put into such a stream as it is put into the buffer. -/
theorem Stream.Spools.put {codec : Codec} {stream : Stream Spool} {buffer : Buffer}
    (spools : stream.Spools codec buffer) (character : Char) :
    AnswersAlike (Spools codec) (Sink.put character stream) (Sink.put character buffer) := by
  rcases stream with ⟨_, spool, delivered, flushes⟩
  obtain ⟨rfl, written⟩ := spools
  rw [Spool.put_eq]
  refine ⟨rfl, rfl, ?_⟩
  simpa [Sink.put] using written

namespace Encoding

/-- The first character is reached by going up, if at all. -/
theorem characterCode_zero (current : Nat) :
    ∃ first others, characterCode 0 current = first :: others ∧ first ≠ '-' := by
  cases current with
  | zero => exact ⟨'.', [], rfl, by decide⟩
  | succ fewer =>
      have up : Heading.between 0 (fewer + 1) = ⟨'+', '-'⟩ := if_pos (Nat.succ_pos fewer)
      have far : distance 0 (fewer + 1) = fewer + 1 := by
        simp only [distance]
        omega
      by_cases near : fewer + 1 < loopThreshold
      · refine ⟨'+', List.replicate fewer '+' ++ ['.'], ?_, by decide⟩
        rw [characterCode, up, far, travelCode, if_pos near, List.replicate_succ, List.cons_append]
      · obtain ⟨onward, loop⟩ : ∃ onward, loopCode ⟨'+', '-'⟩ (fewer + 1) = '>' :: onward :=
          ⟨_, rfl⟩
        refine ⟨'>', onward ++ ['.'], ?_, by decide⟩
        rw [characterCode, up, far, travelCode, if_neg near, loop, List.cons_append]

/-- As a word, the code of a text looks like no option. -/
theorem ofWord_encode (text : List Char) :
    CommandLine.Shape.ofWord (String.ofList (encode text)) = .plain := by
  refine CommandLine.Shape.spelled_iff.mp (.plain ?_)
  rw [String.toList_ofList]
  intro letter others hyphened
  cases text with
  | nil => simp [encode] at hyphened
  | cons character rest =>
      obtain ⟨first, onward, begins, notHyphen⟩ := characterCode_zero character.toNat
      rw [encode, encodeFrom_cons, begins] at hyphened
      exact notHyphen (List.cons.inj hyphened).1

/-- On the standard tape and before every source, the code of a text is run to its end
and the text is in the buffer. -/
theorem exists_run {σ : Type} [Source σ] (text : List Char) (source : σ) :
    ∃ program fuel final count events, Program.parse (encode text) = .ok program ∧
      Machine.run program fuel (Machine.start .standard source Buffer.empty) =
        ⟨final, .finished count, events⟩ ∧
      final.state.sink = ⟨String.ofList text⟩ := by
  obtain ⟨program, parsed, -, path⟩ := (traverses_encode 29998 source text).run
  obtain ⟨fuel, ran⟩ := Machine.exists_run_of_path path (by simp [Machine.finished])
  exact ⟨program, fuel, _, _, _, parsed, ran, rfl⟩

/-- Streamed through a codec to a spool, the code of a text is run to its end and the spool
has kept the bytes of the text. -/
theorem decodeWith_encode {σ : Type} [Source σ] (codec : Codec) (text : List Char) (source : σ) :
    ∃ enough, ∀ fuel, enough ≤ fuel -> ∃ run count,
      decodeWith fuel (encode text) codec source Spool.empty = .ok run ∧
        run.ending = .finished count ∧
        run.machine.state.sink.writer.written.toList = codec.encodeText text := by
  obtain ⟨program, enough, final, count, events, parsed, ran, printed⟩ := exists_run text source
  let streamed : Interpreter σ (Stream Spool) :=
    ⟨program, Machine.start .standard source (Stream.fresh Spool.empty codec)⟩
  let buffered : Interpreter σ Buffer := ⟨program, Machine.start .standard source Buffer.empty⟩
  have lockStep : streamed.InLockStep buffered (Machine.Matches Eq (Stream.Spools codec)) :=
    Interpreter.inLockStep_of_lockStep
      (Machine.lockStep_of_puts program fun character spools => spools.put character)
      ⟨rfl, rfl, rfl, rfl, rfl⟩
  have runs : ∀ fuel, enough ≤ fuel -> buffered.run fuel = ⟨final, .finished count, events⟩ := by
    intro fuel enoughFuel
    have settled : (Machine.run program enough
        (Machine.start .standard source Buffer.empty)).ending ≠ .exhausted := by simp [ran]
    exact (Machine.run_eq_of_le settled enoughFuel).trans ran
  refine ⟨enough, fun fuel enoughFuel => ⟨streamed.run fuel, count, ?_, ?_, ?_⟩⟩
  · simp only [decodeWith, decodeInto, Interpreter.build_of_parse parsed]
    rfl
  · exact (lockStep.endings 0 fuel).trans (congrArg Run.ending (runs fuel enoughFuel))
  · have spools := (lockStep.finals 0 fuel).state.sink
    have collected : ((buffered.after 0).run program fuel).machine.state.sink =
        ⟨String.ofList text⟩ := by
      rw [← printed]
      exact congrArg (·.machine.state.sink) (runs fuel enoughFuel)
    have written := spools.written
    rw [collected, String.toList_ofList] at written
    exact written

end Encoding

namespace CommandLine

/-- The text of a single word that does not ask for help arrives whole. -/
theorem ofArguments_encode (name : String) {text : String} (asksNothing : ¬ AsksForHelp text) :
    Invocation.ofArguments [name, "encode", text] = .ok ⟨none, .encode, [text]⟩ := by
  have unseparated : ¬ SeparatesOptions [text] := by
    rintro ⟨options, rest, -, nonempty, equal⟩
    have lengths := congrArg List.length equal
    have positive := List.length_pos_iff.mpr nonempty
    simp only [List.length_append, List.length_cons, List.length_nil] at lengths
    omega
  have plain : ("encode", .encode) ∈ plainSubcommands := by decide
  refine Invocation.ofArguments_plain name .absent plain ?_
  exact readPayload_protected (by simpa using asksNothing) unseparated

/-- A word that looks like no option is run with the codec that is chosen before it,
or as ASCII. -/
theorem ofArguments_decode (name : String) {codec? : Option Codec} {options : List String}
    (option : CodecOption codec? options) {word : String} (plain : Shape.ofWord word = .plain) :
    Invocation.ofArguments (name :: "decode" :: (options ++ [word])) =
      .ok ⟨none, .decode (codec?.getD .ascii), [word]⟩ := by
  have named : Subcommand.ofName? "decode" = some .decode := rfl
  have opened := Invocation.ofArguments_opened name .absent named (options ++ [word])
  rw [List.nil_append] at opened
  have opens : ∀ first ∈ [word].head?, OpensPayload first := by
    simpa using opensPayload_of_plain plain
  rw [opened, readSubcommand, readPayload_behind_codec option opens]
  rfl

/-- With enough fuel a process succeeds and has printed such bytes. -/
def Yields (environment? : Option String) (arguments : List String) (stdin : List UInt8)
    (bytes : Array UInt8 -> Prop) : Prop :=
  ∃ enough, ∀ fuel, enough ≤ fuel ->
    ∃ outcome, Tool.respond fuel environment? arguments stdin = some outcome ∧
      outcome.exitCode = 0 ∧ bytes outcome.stdout

/-- What is known of the printed bytes may be weakened. -/
theorem Yields.imp {environment? : Option String} {arguments : List String}
    {stdin : List UInt8} {found wanted : Array UInt8 -> Prop}
    (yields : Yields environment? arguments stdin found)
    (implies : ∀ bytes, found bytes -> wanted bytes) :
    Yields environment? arguments stdin wanted := by
  obtain ⟨enough, ends⟩ := yields
  refine ⟨enough, fun fuel enoughFuel => ?_⟩
  obtain ⟨outcome, responds, succeeds, printed⟩ := ends fuel enoughFuel
  exact ⟨outcome, responds, succeeds, implies _ printed⟩

namespace Tool

/-- A text is printed as its characters in the wide codec. -/
theorem eq_printed_iff (text : String) (bytes : Array UInt8) :
    bytes = printed text ↔ bytes.toList = Codec.utf8.encodeText text.toList := by
  rw [Codec.encodeText_utf8, Array.toList_inj]
  rfl

/-- A process that runs the code of a text prints the bytes of that text. -/
theorem yields_of_ofArguments (environment? : Option String) (text : List Char)
    (stdin : List UInt8) {arguments : List String} {codec : Codec}
    (read : Invocation.ofArguments arguments =
      .ok ⟨none, .decode codec, [String.ofList (Encoding.encode text)]⟩) :
    Yields environment? arguments stdin (·.toList = codec.encodeText text) := by
  obtain ⟨enough, runs⟩ := Encoding.decodeWith_encode codec text (Bytes.mk stdin)
  refine ⟨enough, fun fuel enoughFuel => ?_⟩
  obtain ⟨run, count, decodes, ending, written⟩ := runs fuel enoughFuel
  have payload : Invocation.payload ⟨none, .decode codec, [String.ofList (Encoding.encode text)]⟩ =
      Encoding.encode text := String.toList_ofList
  have performs : perform fuel stdin (Encoding.encode text) (.decode codec) =
      some ⟨0, run.machine.state.sink.writer.written, "",
        Interpreter.compilationEvents (Encoding.encode text) ++ run.log⟩ := by
    simp only [perform, decode, decodes, ending]
  rw [← payload] at performs
  exact ⟨_, respond_of_performed read performs, rfl, written⟩

end Tool

/-- Whatever text a process is asked to encode, unless it asks for help: the process
succeeds and prints a program and nothing else. Given that program as one word, another
process takes it for its payload, whether or not a codec is chosen before it, and
succeeds on every standard input. In the wide codec it prints the bytes of the text, and
in the codec that is taken without a choice exactly if the text is within ASCII. -/
theorem respond_encode_decode {text : String} (asksNothing : ¬ AsksForHelp text) :
    ∃ program : String, program = String.ofList (Encoding.encode text.toList) ∧
      (∀ name environment? fuel stdin, ∃ outcome,
        Tool.respond fuel environment? [name, "encode", text] stdin = some outcome ∧
          outcome.exitCode = 0 ∧ outcome.stdout = Tool.printed program) ∧
      ∀ name environment? stdin,
        Invocation.ofArguments [name, "decode", "--codec", "utf8", program] =
            .ok ⟨none, .decode .utf8, [program]⟩ ∧
          Yields environment? [name, "decode", "--codec", "utf8", program] stdin
            (· = Tool.printed text) ∧
          Invocation.ofArguments [name, "decode", program] =
            .ok ⟨none, .decode .ascii, [program]⟩ ∧
          Yields environment? [name, "decode", program] stdin fun bytes =>
            (bytes = Tool.printed text ↔ ∀ character ∈ text.toList, character.toNat ≤ 0x7f) := by
  refine ⟨_, rfl, ?_, ?_⟩
  · intro name environment? fuel stdin
    exact ⟨_, Tool.respond_of_performed (ofArguments_encode name asksNothing) rfl, rfl, rfl⟩
  · intro name environment? stdin
    have plain := Encoding.ofWord_encode text.toList
    have utf8 : CodecOption (some .utf8) ["--codec", "utf8"] := .separate rfl
    have readWide := ofArguments_decode name utf8 plain
    have readNarrow := ofArguments_decode name .absent plain
    refine ⟨readWide, ?_, readNarrow, ?_⟩
    · refine (Tool.yields_of_ofArguments environment? text.toList stdin readWide).imp ?_
      intro bytes wide
      exact (Tool.eq_printed_iff text bytes).mpr wide
    · refine (Tool.yields_of_ofArguments environment? text.toList stdin readNarrow).imp ?_
      intro bytes narrow
      rw [Tool.eq_printed_iff, narrow]
      exact Codec.encodeText_eq_utf8_iff (by decide)

/-- A text that begins as an option does and leaves ASCII. -/
theorem respond_encode_decode_hyphened :
    ¬ AsksForHelp "--codec=é" ∧
      ∃ program : String, program = String.ofList (Encoding.encode "--codec=é".toList) ∧
        (∀ name environment? fuel stdin, ∃ outcome,
          Tool.respond fuel environment? [name, "encode", "--codec=é"] stdin = some outcome ∧
            outcome.exitCode = 0 ∧ outcome.stdout = Tool.printed program) ∧
        ∀ name environment? stdin,
          Invocation.ofArguments [name, "decode", "--codec", "utf8", program] =
              .ok ⟨none, .decode .utf8, [program]⟩ ∧
            Yields environment? [name, "decode", "--codec", "utf8", program] stdin
              (· = Tool.printed "--codec=é") ∧
            Invocation.ofArguments [name, "decode", program] =
              .ok ⟨none, .decode .ascii, [program]⟩ ∧
            Yields environment? [name, "decode", program] stdin fun bytes =>
              (bytes = Tool.printed "--codec=é" ↔
                ∀ character ∈ "--codec=é".toList, character.toNat ≤ 0x7f) :=
  ⟨by decide, respond_encode_decode (by decide)⟩

end CommandLine

end Brainfuck
