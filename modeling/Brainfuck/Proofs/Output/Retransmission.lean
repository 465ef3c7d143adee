import Brainfuck.Machine.Interpreter
import Brainfuck.Proofs.Code.Tree
import Brainfuck.Proofs.Input.Unfailing
import Brainfuck.Proofs.Output.Bookkeeping
import Brainfuck.Proofs.Output.Transmission
import Brainfuck.Proofs.Semantics.Perseverance

/-!
# What retrying does to the output of a stream

A put that fails leaves the tape and the place as they are, so that the next run
puts the same character again, from its first byte. Running again after each
failure of a scripted writer therefore gets as far as one run over a buffer, but
some bytes are accepted more than once: `retrying_retransmits`. What was asked of the
writer is noted by a recorder in its place. In the simulation the failed attempts that are
`pending` belong to the character that the machine is about to put; nothing is pending
anywhere else.
-/

namespace Brainfuck

variable {σ : Type} [Source σ]

/-- The same source on both sides, which never fails. -/
def Source.SameUnfailing (left right : σ) : Prop :=
  left = right ∧ Source.Unfailing left

namespace Retransmission

/-- A stream that has carried the characters of a buffer, each in one transmission. -/
def Delivers {ω : Type} (codec : Codec) (met : List IoFailure) (stream : Stream (Recorder ω))
    (buffer : Buffer) : Prop :=
  ∃ transmissions : List (Transmission codec),
    transmissions.map Transmission.character = buffer.text.toList ∧
      stream.Carried transmissions [] [] met

/-- A machine over a stream, stepped on after failures, and a machine over a buffer
that is at the same place. What has failed since the last character was put failed
at the character that is put next. -/
structure Related (program : Program) (codec : Codec)
    (persistence : Stepper.Persistence (Machine σ (Stream (Recorder WriteScript))))
    (image : Machine σ Buffer) : Prop where
  now : persistence.current.now = image.now
  tape : persistence.current.state.tape = image.state.tape
  source : Source.SameUnfailing persistence.current.state.source image.state.source
  sink : ∃ (transmissions : List (Transmission codec)) (pending : List FailedPut),
    transmissions.map Transmission.character = image.state.sink.text.toList ∧
      (persistence.current.command? program ≠ some .output -> pending = []) ∧
      (∀ attempt ∈ pending,
        attempt.Fits (codec.encode persistence.current.state.tape.cell.toChar)) ∧
      persistence.current.state.sink.Carried transmissions pending
        (codec.encode persistence.current.state.tape.cell.toChar) persistence.met

variable {program : Program} {codec : Codec} {met : List IoFailure}
  {machine : Machine σ (Stream (Recorder WriteScript))} {image : Machine σ Buffer}

/-- Machines between which nothing is pending are related. -/
theorem related_of_matches
    (matched : machine.Matches Source.SameUnfailing (Delivers codec met) image) :
    Related program codec ⟨machine, met⟩ image := by
  obtain ⟨now, tape, source, transmissions, characters, carried⟩ := matched
  exact ⟨now, tape, source, transmissions, [], characters, fun _ => rfl, by simp, carried.congr _⟩

/-- Where no character is put, nothing is pending. -/
theorem Related.delivers (related : Related program codec ⟨machine, met⟩ image)
    (elsewhere : machine.command? program ≠ some .output) :
    Delivers codec met machine.state.sink image.state.sink := by
  obtain ⟨transmissions, pending, characters, nothing, -, carried⟩ := related.sink
  obtain rfl := nothing elsewhere
  exact ⟨transmissions, characters, carried.congr []⟩

/-- A step at which no put fails is taken by both. -/
theorem Related.stepTogether (related : Related program codec ⟨machine, met⟩ image)
    (unfinished : machine.finished program = false)
    (puts : machine.command? program = some .output -> ∃ written,
      Sink.put machine.state.tape.cell.toChar machine.state.sink = (.ok (), written) ∧
        Delivers codec met written
          ⟨image.state.sink.text.push machine.state.tape.cell.toChar⟩) :
    Stepper.StepTogether (Machine.stepper program).persistent (Machine.stepper program)
      (fun _ => true) (Related program codec) ⟨machine, met⟩ image := by
  obtain ⟨same, unfailing⟩ := related.source
  have succeeds : (machine.step program).failure? = none := by
    apply Machine.failure?_step_eq_none
    · intro _
      exact unfailing.read_eq_ok
    · intro asks
      obtain ⟨written, put, -⟩ := puts asks
      rw [put]
  have answers : State.Answers Source.SameUnfailing (Delivers codec met) machine.state
      image.state (machine.command? program) := by
    refine ⟨related.tape, fun _ => related.source, ?_, related.delivers, ?_⟩
    · intro _
      rw [← same]
      exact ⟨rfl, rfl, unfailing.rest⟩
    · intro asks
      obtain ⟨written, put, delivers⟩ := puts asks
      rw [put]
      exact ⟨rfl, delivers⟩
  exact Machine.stepTogether_of_answers related.now unfinished succeeds answers related_of_matches

/-- The answers that the writer has left. -/
def remaining
    (persistence : Stepper.Persistence (Machine σ (Stream (Recorder WriteScript)))) : Nat :=
  (persistence.current.state.sink.map Recorder.writer).answersLeft

/-- A step whose put fails is silent, and its attempt is pending from then on. -/
theorem Related.stepSilently (related : Related program codec ⟨machine, met⟩ image)
    (asks : machine.command? program = some .output) {failure : IoFailure}
    {written : Stream (Recorder WriteScript)}
    (put : Sink.put machine.state.tape.cell.toChar machine.state.sink = (.error failure, written))
    {transmissions : List (Transmission codec)} {pending : List FailedPut}
    (characters : transmissions.map Transmission.character = image.state.sink.text.toList)
    (fits : ∀ attempt ∈ pending, attempt.Fits (codec.encode machine.state.tape.cell.toChar))
    (carried : written.Carried transmissions pending
      (codec.encode machine.state.tape.cell.toChar) (met ++ [failure])) :
    Stepper.StepSilently (Machine.stepper program).persistent (Related program codec)
      remaining ⟨machine, met⟩ image := by
  have unnoticed :=
    Recorder.unnoticed.put machine.state.tape.cell.toChar machine.state.sink
  rw [put] at unnoticed
  have shorter := Stream.answersLeft_put_lt (congrArg Prod.fst unnoticed)
  rw [unnoticed] at shorter
  apply Machine.stepSilently_of_failed asks (State.perform_output_of_error put) shorter
  refine ⟨related.now, related.tape, related.source, transmissions, pending, characters, ?_, fits,
    carried⟩
  exact fun elsewhere => absurd asks elsewhere

/-- Stepping on after the failures of a writer is simulated by a machine over a
buffer. -/
def simulation (program : Program) (codec : Codec) :
    Stepper.Simulation
      (Machine.stepper program : Stepper (Machine σ (Stream (Recorder WriteScript)))).persistent
      (Machine.stepper program : Stepper (Machine σ Buffer)) (fun _ => true) where
  Related := Related program codec
  remaining := remaining
  finishes := by
    rintro ⟨machine, met⟩ image related finished
    exact (Machine.finished_eq related.now).symm.trans finished
  proceeds := by
    rintro ⟨machine, met⟩ image related unfinished
    -- Only where a character is put can attempts be pending, and only there can a step fail.
    by_cases asks : machine.command? program = some .output
    · obtain ⟨transmissions, pending, characters, -, fits, carried⟩ := related.sink
      rcases carried.put fits with
        ⟨written, put, carriedAll⟩ | ⟨attempt, written, put, fitsToo, carriedMore⟩
      · have everything := carriedAll.congr []
        refine .inl (related.stepTogether unfinished fun _ => ⟨written, put, _, ?_, everything⟩)
        simp [characters]
      · refine .inr (related.stepSilently asks put characters ?_ carriedMore)
        simpa [or_imp, forall_and] using ⟨fits, fitsToo⟩
    · exact .inl (related.stepTogether unfinished fun asksToo => absurd asksToo asks)

end Retransmission

/-- What running again after each failure of a writer comes to, beside a run over a
buffer: the same tape, place and source; the characters of the buffer went through
in one transmission each, and the failures are those of the attempts that failed. The
requests that the recorder has noted are those of these attempts in their order, so that
the bytes that were accepted are theirs. In one byte for each character, and if no flush
failed, every character was accepted just once. -/
structure Retransmits (codec : Codec) (failures : List IoFailure)
    (final : Machine σ (Stream (Recorder WriteScript))) (last : Machine σ Buffer)
    (transmissions : List (Transmission codec)) : Prop where
  tape : final.state.tape = last.state.tape
  now : final.now = last.now
  source : final.state.source = last.state.source
  characters : transmissions.map Transmission.character = last.state.sink.text.toList
  failures_eq : failures = transmissions.flatMap Transmission.failures
  told : PutAttempt.AllToldBy final.state.sink.writer.requests
    (transmissions.flatMap Transmission.attempts)
  accepted : final.state.sink.writer.accepted = transmissions.flatMap Transmission.accepted
  accepted_once : codec ≠ .utf8 ->
    (∀ answer ∈ final.state.sink.writer.flushAnswers, answer = .ok ()) ->
    final.state.sink.writer.accepted = last.state.sink.text.toList.flatMap codec.encode

/-- In one byte for each character nothing is accepted twice if no flush fails. -/
theorem flatMap_accepted_eq {codec : Codec} {transmissions : List (Transmission codec)}
    (narrow : codec ≠ .utf8)
    (flushed : ∀ answer ∈ transmissions.flatMap Transmission.flushAnswers, answer = .ok ()) :
    transmissions.flatMap Transmission.accepted =
      (transmissions.map Transmission.character).flatMap codec.encode := by
  rw [List.flatMap_def, List.flatMap_def, List.map_map]
  congr 1
  apply List.map_congr_left
  intro transmission isIn
  refine transmission.accepted_eq_encode narrow fun answer isAnswer => flushed answer ?_
  exact List.mem_flatMap.mpr ⟨transmission, isIn, isAnswer⟩

/-- Machines that are related at the end of a program have put everything. -/
theorem Retransmission.Related.exists_retransmits {program : Program} {codec : Codec}
    {failures : List IoFailure} {final : Machine σ (Stream (Recorder WriteScript))}
    {last : Machine σ Buffer}
    (related : Retransmission.Related program codec ⟨final, failures⟩ last)
    (finished : final.finished program = true) :
    ∃ transmissions, Retransmits codec failures final last transmissions := by
  have elsewhere : final.command? program ≠ some .output := by
    rw [Machine.command?, Machine.finished_eq_true_iff.mp finished]
    simp
  obtain ⟨transmissions, characters, -, met, told⟩ := related.delivers elsewhere
  rw [List.map_nil, List.append_nil] at met told
  have accepted : final.state.sink.writer.accepted =
      transmissions.flatMap Transmission.accepted := by
    rw [Recorder.accepted, told.flatMap_accepted, List.flatMap_assoc]
    rfl
  have flushAnswers : final.state.sink.writer.flushAnswers =
      transmissions.flatMap Transmission.flushAnswers := by
    rw [Recorder.flushAnswers, told.filterMap_flushAnswer?, List.flatMap_assoc]
    rfl
  refine ⟨transmissions, related.tape, related.now, related.source.1, characters, met, told,
    accepted, ?_⟩
  intro narrow allFlushed
  rw [flushAnswers] at allFlushed
  rw [accepted, flatMap_accepted_eq narrow allFlushed, characters]

/-- For every balanced code, every tape, every source that never fails, every codec
and every script of a writer, running again over the stream after each failure
comes to the same as one run over a buffer: it succeeds exactly if that run does.
With a recorder in the place of the writer, which is not noticed, it goes through the same
failures, and what the recorder notes is that each character of the buffer was accepted in
full by its last attempt, after what its failed attempts had accepted of it. -/
theorem retrying_retransmits {code : List Char} (balanced : Balanced code) (tape : Tape)
    {source : σ} (unfailing : Source.Unfailing source) (codec : Codec) (script : WriteScript) :
    ∃ streamed buffered,
      Interpreter.build code tape source (Stream.fresh script codec) = .ok streamed ∧
        Interpreter.build code tape source Buffer.empty = .ok buffered ∧
        streamed.RetriesAs buffered fun failures final last => ∃ watched,
          streamed.watched.Perseveres failures watched ∧
            final.Matches Eq (Stream.fresh script codec).WatchedSince watched ∧
            ∃ transmissions, Retransmits codec failures watched last transmissions := by
  obtain ⟨block, rfl⟩ := balanced.exists_block
  let streamed : Interpreter σ (Stream WriteScript) :=
    ⟨.ofBlock block, Machine.start tape source (Stream.fresh script codec)⟩
  let buffered : Interpreter σ Buffer := ⟨.ofBlock block, Machine.start tape source Buffer.empty⟩
  refine ⟨streamed, buffered, Interpreter.build_of_parse block.parse_code tape source _,
    Interpreter.build_of_parse block.parse_code tape source _, ?_⟩
  have carried := Stream.carried_fresh codec script []
  have related : Retransmission.Related (.ofBlock block) codec ⟨streamed.watched.machine, []⟩
      buffered.machine :=
    Retransmission.related_of_matches ⟨rfl, rfl, ⟨rfl, unfailing⟩, [], rfl, carried⟩
  have retries : streamed.watched.RetriesAs buffered fun failures final last =>
      ∃ transmissions, Retransmits codec failures final last transmissions := by
    apply Interpreter.retriesAs_of_simulation (Retransmission.simulation _ codec) related
    intro failures final last relatedLast finished
    exact relatedLast.exists_retransmits finished
  exact retries.of_lockStep (Machine.lockStep_watched _ _) streamed.machine.matches_watched

/-- A copying loop whose writer fails in the middle of a character and in a flush. -/
theorem retrying_retransmits_copying :
    Balanced [',', '[', '.', ',', ']'] ∧ Source.Unfailing (Bytes.mk [233, 0]) ∧
      ∃ streamed buffered,
        Interpreter.build [',', '[', '.', ',', ']'] .standard (Bytes.mk [233, 0])
            (Stream.fresh ⟨[.upTo 1, .upTo 0], [some .writeZero]⟩ .utf8) = .ok streamed ∧
          Interpreter.build [',', '[', '.', ',', ']'] .standard (Bytes.mk [233, 0])
            Buffer.empty = .ok buffered ∧
          streamed.RetriesAs buffered fun failures final last => ∃ watched,
            streamed.watched.Perseveres failures watched ∧
              final.Matches Eq
                (Stream.fresh ⟨[.upTo 1, .upTo 0], [some .writeZero]⟩ .utf8).WatchedSince
                watched ∧
              ∃ transmissions, Retransmits .utf8 failures watched last transmissions :=
  ⟨by decide, Bytes.unfailing _, retrying_retransmits (by decide) .standard (Bytes.unfailing _) _ _⟩

end Brainfuck
