import Brainfuck.Machine.Interpreter
import Brainfuck.Proofs.Code.Tree
import Brainfuck.Proofs.Output.Bookkeeping

/-!
# The sink does not influence a run

A writer is `Obliging` if it takes at least one byte whenever it is offered some,
or interrupts, and if its flushes succeed. A stream over such a writer never fails,
under every chunking and interruption, and its writer has accepted the encoded characters
that a buffer would have collected: `streaming_inLockStep`. So the two machines go in
lock step, whatever the source does, for as long as they run. What the writer has accepted
is read off a recorder in its place.
-/

namespace Brainfuck

variable {ω : Type} [Writer ω]

namespace Writer

/-- What a writer can become, by writes that offer something and by flushes. -/
inductive Becomes (writer : ω) : ω -> Prop where
  | refl : Becomes writer writer
  | write {reached : ω} (becomes : Becomes writer reached) (offered : List UInt8)
      (nonempty : offered ≠ []) : Becomes writer (Writer.write offered reached).2
  | flush {reached : ω} (becomes : Becomes writer reached) :
      Becomes writer (Writer.flush reached).2

/-- What a writer has become can become something else. -/
theorem Becomes.trans {writer reached last : ω} (onto : Becomes writer reached)
    (onward : Becomes reached last) : Becomes writer last := by
  induction onward with
  | refl => exact onto
  | write _ offered nonempty inductionHypothesis =>
      exact .write inductionHypothesis offered nonempty
  | flush _ inductionHypothesis => exact .flush inductionHypothesis

/-- Whatever becomes of the writer, its writes take some of what they are offered or
are interrupted, and its flushes succeed. -/
structure Obliging (writer : ω) : Prop where
  writes : ∀ {reached : ω}, Becomes writer reached -> ∀ offered : List UInt8, offered ≠ [] ->
    TakesSome (Writer.write offered reached).1
  flushes : ∀ {reached : ω}, Becomes writer reached -> (Writer.flush reached).1 = .ok ()

/-- An obliging writer stays obliging. -/
theorem Obliging.of_becomes {writer reached : ω} (obliging : Obliging writer)
    (becomes : Becomes writer reached) : Obliging reached where
  writes onward := obliging.writes (becomes.trans onward)
  flushes onward := obliging.flushes (becomes.trans onward)

/-- An obliging writer stays obliging when it has been written to. -/
theorem Obliging.of_write {writer next : ω} {offered : List UInt8}
    {answer : Except IoFailure Nat} (obliging : Obliging writer) (nonempty : offered ≠ [])
    (written : Writer.write offered writer = (answer, next)) : Obliging next := by
  have becomes : Becomes writer (Writer.write offered writer).2 := .write .refl offered nonempty
  rw [written] at becomes
  exact obliging.of_becomes becomes

/-- A write to an obliging writer is answered as it should be. -/
theorem Obliging.takesSome {writer next : ω} {offered : List UInt8}
    {answer : Except IoFailure Nat} (obliging : Obliging writer) (nonempty : offered ≠ [])
    (written : Writer.write offered writer = (answer, next)) : TakesSome answer := by
  have takes := obliging.writes .refl offered nonempty
  rwa [written] at takes

/-- A flush of an obliging writer succeeds and leaves it obliging. -/
theorem Obliging.flush {writer : ω} (obliging : Obliging writer) :
    ∃ flushed, Writer.flush writer = (.ok (), flushed) ∧ Obliging flushed :=
  ⟨_, Prod.ext (obliging.flushes .refl) rfl, obliging.of_becomes (.flush .refl)⟩

/-- A writer is obliging if it satisfies something that its writes and flushes keep
true, and under which they oblige. -/
theorem Obliging.of_invariant (Invariant : ω -> Prop) {writer : ω} (initially : Invariant writer)
    (writes : ∀ {reached : ω}, Invariant reached -> ∀ offered : List UInt8, offered ≠ [] ->
      TakesSome (Writer.write offered reached).1 ∧ Invariant (Writer.write offered reached).2)
    (flushes : ∀ {reached : ω}, Invariant reached ->
      (Writer.flush reached).1 = .ok () ∧ Invariant (Writer.flush reached).2) :
    Obliging writer := by
  have always : ∀ {reached : ω}, Becomes writer reached -> Invariant reached := by
    intro reached becomes
    induction becomes with
    | refl => exact initially
    | write _ offered nonempty inductionHypothesis =>
        exact (writes inductionHypothesis offered nonempty).2
    | flush _ inductionHypothesis => exact (flushes inductionHypothesis).2
  exact ⟨fun becomes offered nonempty => (writes (always becomes) offered nonempty).1,
    fun becomes => (flushes (always becomes)).1⟩

end Writer

open Writer (Obliging)

/-- An answer that takes some of what is offered, or that interrupts. -/
def WriteAnswer.Obliges : WriteAnswer -> Prop
  | .upTo count => 0 < count
  | .all => True
  | .failure reported => reported.isInterruption = true

/-- A script all of whose answers to writes oblige, and none to a flush is a failure. -/
structure WriteScript.Obliges (script : WriteScript) : Prop where
  writes : ∀ answer ∈ script.writes, answer.Obliges
  flushes : ∀ answer ∈ script.flushes, answer = none

/-- A script that obliges is an obliging writer: answering leaves it with fewer answers. -/
theorem WriteScript.Obliges.obliging {script : WriteScript} (obliges : script.Obliges) :
    Obliging script := by
  apply Obliging.of_invariant WriteScript.Obliges obliges
  · rintro ⟨_ | ⟨answer, laterWrites⟩, laterFlushes⟩ ⟨obliges, unfailing⟩ offered nonempty
    · exact ⟨List.length_pos_iff.mpr nonempty, obliges, unfailing⟩
    · obtain ⟨obligesNow, obligesLater⟩ := List.forall_mem_cons.mp obliges
      cases answer with
      | upTo count =>
          have takesSome : 0 < min count offered.length :=
            Nat.lt_min.mpr ⟨obligesNow, List.length_pos_iff.mpr nonempty⟩
          exact ⟨takesSome, obligesLater, unfailing⟩
      | all => exact ⟨List.length_pos_iff.mpr nonempty, obligesLater, unfailing⟩
      | failure failure => exact ⟨obligesNow, obligesLater, unfailing⟩
  · rintro ⟨laterWrites, _ | ⟨answer, laterFlushes⟩⟩ ⟨obliges, unfailing⟩
    · exact ⟨rfl, obliges, unfailing⟩
    · obtain ⟨rfl, unfailingLater⟩ := List.forall_mem_cons.mp unfailing
      exact ⟨rfl, obliges, unfailingLater⟩

/-- A recorder of an obliging writer is an obliging writer. -/
theorem Recorder.obliging {recorder : Recorder ω} (obliging : Obliging recorder.writer) :
    Obliging recorder := by
  apply Obliging.of_invariant (fun reached : Recorder ω => Obliging reached.writer) obliging
  · intro reached obliging offered nonempty
    rcases written : Writer.write offered reached.writer with ⟨answer, next⟩
    rw [Recorder.write_eq written]
    exact ⟨obliging.takesSome nonempty written, obliging.of_write nonempty written⟩
  · intro reached obliging
    obtain ⟨flushed, flush, obligingFlushed⟩ := obliging.flush
    rw [Recorder.flush_eq flush]
    exact ⟨rfl, obligingFlushed⟩

/-- A delivery to an obliging writer succeeds and leaves it obliging. -/
theorem deliver_of_obliging {offered : List UInt8} {writer : ω} (obliging : Obliging writer) :
    (deliver offered writer).result = .ok () ∧ Obliging (deliver offered writer).writer := by
  fun_induction deliver offered writer with
  | case1 => exact ⟨rfl, obliging⟩
  | case2 offered writer nonempty next answer =>
      -- Taking none of what was offered is the one success that an obliging writer rules out.
      have positive : 0 < 0 := obliging.takesSome nonempty answer
      omega
  | case3 offered writer nonempty count next answer atMost later inductionHypothesis =>
      exact inductionHypothesis (obliging.of_write nonempty answer)
  | case4 offered writer nonempty failure next answer interrupted less inductionHypothesis =>
      exact inductionHypothesis (obliging.of_write nonempty answer)
  | case5 offered writer nonempty failure next answer lasting =>
      exact absurd (obliging.takesSome nonempty answer) lasting

/-- Over an obliging writer every character is put: all its bytes are accepted, and they are
flushed once. -/
theorem Stream.put_of_obliging {stream : Stream ω} (obliging : Obliging stream.writer)
    (character : Char) :
    ∃ flushed, Obliging flushed ∧ Sink.put character stream =
      (.ok (), ⟨stream.codec, flushed, stream.delivered ++ stream.codec.encode character,
        stream.flushes + 1⟩) := by
  obtain ⟨succeeds, obligingRest⟩ :
      (deliver (stream.codec.encode character) stream.writer).result = .ok () ∧
        Obliging (deliver (stream.codec.encode character) stream.writer).writer :=
    deliver_of_obliging obliging
  have puts := put_cases character stream
  generalize Sink.put character stream = answer at puts
  cases puts with
  | @delivered rest flushed complete flush =>
      simp only [complete] at obligingRest
      obtain ⟨flushedToo, flushToo, obligingFlushed⟩ := obligingRest.flush
      obtain rfl : flushed = flushedToo := congrArg Prod.snd (flush.symm.trans flushToo)
      exact ⟨flushed, obligingFlushed, rfl⟩
  | cut partly => simp [partly] at succeeds
  | unflushed complete flush =>
      simp only [complete] at obligingRest
      obtain ⟨flushed, flushToo, -⟩ := obligingRest.flush
      simp [flush] at flushToo

/-- With a recorder in the place of the writer it is put alike, and the recorder notes the
requests of an attempt that succeeded. -/
theorem Stream.put_watched_of_obliging {stream : Stream ω} (obliging : Obliging stream.writer)
    (character : Char) :
    ∃ flushed requests, PutAttempt.ToldBy requests ⟨stream.codec.encode character, none⟩ ∧
      Sink.put character stream =
        (.ok (), ⟨stream.codec, flushed, stream.delivered ++ stream.codec.encode character,
          stream.flushes + 1⟩) ∧
      Sink.put character stream.watched =
        (.ok (), ⟨stream.codec, ⟨flushed, requests⟩,
          stream.delivered ++ stream.codec.encode character, stream.flushes + 1⟩) := by
  have obligingWatched : Obliging stream.watched.writer := Recorder.obliging obliging
  obtain ⟨⟨flushed, noted⟩, -, put⟩ := put_of_obliging obligingWatched character
  obtain ⟨requests, failed?, sameRequests, -, puts⟩ :=
    (stream.watched.put_cases character).exists_putsBy
  rw [put] at sameRequests puts
  obtain rfl : noted = requests := sameRequests
  obtain rfl := puts.failed?_eq_none rfl
  refine ⟨flushed, noted, puts.toldBy, ?_, put⟩
  rw [stream.put_watched, put]
  rfl

/-- A stream over an obliging writer that has taken the encoded characters of a
buffer, with one flush for each. -/
structure Stream.Encodes (codec : Codec) (stream : Stream ω) (buffer : Buffer) : Prop where
  codec_eq : stream.codec = codec
  delivered : stream.delivered.toList = buffer.text.toList.flatMap codec.encode
  flushes : stream.flushes = buffer.text.length
  obliging : Obliging stream.writer

/-- A character is put into such a stream as it is put into the buffer. -/
theorem Stream.Encodes.put {codec : Codec} {stream : Stream ω} {buffer : Buffer}
    (encodes : stream.Encodes codec buffer) (character : Char) :
    AnswersAlike (Encodes codec) (Sink.put character stream) (Sink.put character buffer) := by
  obtain ⟨rfl, delivered, flushes, obliging⟩ := encodes
  obtain ⟨flushed, obligingFlushed, put⟩ := put_of_obliging obliging character
  rw [put]
  refine ⟨rfl, rfl, ?_, ?_, obligingFlushed⟩
  · simp [delivered, Sink.put]
  · simp [flushes, Sink.put]

/-- A stream over the recorder of an obliging writer. Besides what is true of every such
stream beside a buffer, the recorder has noted the requests of one attempt for each character
of the buffer, all of which succeeded. So the writes have accepted the encoded characters, and
there was a flush for each, which succeeded, and no other flush. -/
structure Stream.Conveys (codec : Codec) (stream : Stream (Recorder ω)) (buffer : Buffer) : Prop
    extends Stream.Encodes codec stream buffer where
  told : PutAttempt.AllToldBy stream.writer.requests
    (buffer.text.toList.map fun character => ⟨codec.encode character, none⟩)
  accepted : stream.writer.accepted = buffer.text.toList.flatMap codec.encode
  flushAnswers : stream.writer.flushAnswers = List.replicate buffer.text.length (.ok ())

/-- The bytes and the flushes are told by the attempts. -/
theorem Stream.Encodes.conveys {codec : Codec} {stream : Stream (Recorder ω)} {buffer : Buffer}
    (encodes : stream.Encodes codec buffer)
    (told : PutAttempt.AllToldBy stream.writer.requests
      (buffer.text.toList.map fun character => ⟨codec.encode character, none⟩)) :
    stream.Conveys codec buffer where
  toEncodes := encodes
  told := told
  accepted := by
    rw [Recorder.accepted, told.flatMap_accepted, List.flatMap_map]
    rfl
  flushAnswers := by
    rw [Recorder.flushAnswers, told.filterMap_flushAnswer?, List.flatMap_map,
      ← String.length_toList, ← List.map_const']
    exact List.map_eq_flatMap.symm

/-- What the recorder notes of a character is put into the buffer as that character. -/
theorem Stream.Conveys.put {codec : Codec} {stream : Stream (Recorder ω)} {buffer : Buffer}
    (conveys : stream.Conveys codec buffer) (character : Char) :
    AnswersAlike (Conveys codec) (Sink.put character stream) (Sink.put character buffer) := by
  obtain ⟨succeeds, encodes⟩ := conveys.toEncodes.put character
  obtain ⟨requests, failed?, noted, -, puts⟩ := (stream.put_cases character).exists_putsBy
  obtain rfl := puts.failed?_eq_none succeeds
  have told : PutAttempt.ToldBy requests ⟨stream.codec.encode character, none⟩ := puts.toldBy
  rw [conveys.codec_eq] at told
  refine ⟨succeeds, encodes.conveys ?_⟩
  rw [noted]
  simpa [Sink.put] using conveys.told.concat told

variable {σ : Type} [Source σ]

/-- An interpreter over a stream beside one over a buffer. They go in lock step, and so does
the first with a recorder in the place of its writer, which is not noticed. The stream has
booked the encoded characters of the buffer, and these are the bytes of the writes that the
recorder has noted. -/
structure Interpreter.StreamsAs (codec : Codec) (streamed : Interpreter σ (Stream ω))
    (buffered : Interpreter σ Buffer) : Prop where
  booked : streamed.InLockStep buffered (Machine.Matches Eq (Stream.Encodes codec))
  watched : streamed.InLockStep streamed.watched
    (Machine.Matches Eq streamed.machine.state.sink.WatchedSince)
  conveyed : streamed.watched.InLockStep buffered (Machine.Matches Eq (Stream.Conveys codec))

/-- Before an obliging writer every program is streamed, whatever it is. -/
theorem Interpreter.streamsAs_of_obliging (program : Program) (tape : Tape) (source : σ)
    (codec : Codec) {writer : ω} (obliging : Obliging writer) :
    StreamsAs codec ⟨program, Machine.start tape source (Stream.fresh writer codec)⟩
      ⟨program, Machine.start tape source Buffer.empty⟩ where
  booked := by
    have encodes : (Stream.fresh writer codec).Encodes codec Buffer.empty :=
      ⟨rfl, rfl, rfl, obliging⟩
    exact inLockStep_of_lockStep
      (Machine.lockStep_of_puts program fun character encodes => encodes.put character)
      ⟨rfl, rfl, rfl, encodes⟩
  watched := inLockStep_watched _
  conveyed := by
    have conveys : (Stream.fresh writer codec).watched.Conveys codec Buffer.empty :=
      ⟨⟨rfl, rfl, rfl, Recorder.obliging obliging⟩, .nil, rfl, rfl⟩
    exact inLockStep_of_lockStep
      (Machine.lockStep_of_puts program fun character conveys => conveys.put character)
      ⟨rfl, rfl, rfl, conveys⟩

/-- For every balanced code, every tape, every source, every codec and every
obliging writer, an interpreter over a stream and one over a buffer go in lock
step: at every moment they are at the same place with the same tape and source, and
every step and run from there returns the same and logs the same on both sides. At every
moment the writer has accepted the encoded characters of the buffer, with one flush for
each, as a recorder in its place notes. -/
theorem streaming_inLockStep {code : List Char} (balanced : Balanced code) (tape : Tape)
    (source : σ) (codec : Codec) {writer : ω} (obliging : Obliging writer) :
    ∃ streamed buffered,
      Interpreter.build code tape source (Stream.fresh writer codec) = .ok streamed ∧
        Interpreter.build code tape source Buffer.empty = .ok buffered ∧
        streamed.StreamsAs codec buffered := by
  obtain ⟨block, rfl⟩ := balanced.exists_block
  exact ⟨_, _, Interpreter.build_of_parse block.parse_code tape source _,
    Interpreter.build_of_parse block.parse_code tape source _,
    Interpreter.streamsAs_of_obliging _ tape source codec obliging⟩

/-- A copying loop whose reader fails between two characters, over a writer that
takes one byte at first and is interrupted then. -/
theorem streaming_inLockStep_interrupted :
    Balanced [',', '[', '.', ',', ']'] ∧
      Obliging (WriteScript.mk [.upTo 1, .failure ⟨.interrupted, ""⟩, .upTo 3] [none]) ∧
      ∃ streamed buffered,
        Interpreter.build [',', '[', '.', ',', ']'] .standard
            (CellScript.mk [.ok 233, .error ⟨.other, ""⟩, .ok 65])
            (Stream.fresh
              (WriteScript.mk [.upTo 1, .failure ⟨.interrupted, ""⟩, .upTo 3] [none]) .utf8) =
            .ok streamed ∧
          Interpreter.build [',', '[', '.', ',', ']'] .standard
            (CellScript.mk [.ok 233, .error ⟨.other, ""⟩, .ok 65]) Buffer.empty = .ok buffered ∧
          streamed.StreamsAs .utf8 buffered := by
  have obliging :
      Obliging (WriteScript.mk [.upTo 1, .failure ⟨.interrupted, ""⟩, .upTo 3] [none]) := by
    apply WriteScript.Obliges.obliging
    constructor
    · simp [WriteAnswer.Obliges, IoFailure.isInterruption]
    · simp
  exact ⟨by decide, obliging, streaming_inLockStep (by decide) .standard _ .utf8 obliging⟩

end Brainfuck
