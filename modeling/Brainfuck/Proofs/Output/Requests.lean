import Brainfuck.Proofs.Output.Attempts
import Brainfuck.Proofs.Output.Patience
import Mathlib.Logic.ExistsUnique

/-!
# What putting a character asks of a writer

Whatever a writer answers, putting a character ends in one of three ways, and the requests
that were made of the writer tell in which one: the last of them is a flush that succeeded,
a flush that failed, or a write that ended the delivery. `Delivery.ToldBy` says what the
writes of a delivery have to do with its result, for every delivery by
`Recorder.toldBy_deliver`, and `Stream.PutsBy` says the same of a character.
`Stream.put_endsInOneWay` collects what is true of every put, and adds what a series of
them does to the bytes that were accepted before: nothing.
-/

namespace Brainfuck

open Writer (Request Reports TakesSome)

/-- Each write among some requests offers what the writes before have left of the bytes,
and that is never nothing. -/
def Writer.OffersRests (bytes : List UInt8) (requests : List Request) : Prop :=
  ∀ before rest answer, before ++ [.write rest answer] <+: requests ->
    rest ≠ [] ∧ before.flatMap Request.accepted ++ rest = bytes

open Writer (OffersRests)

/-- What the requests of a delivery tell about it: which bytes were accepted, that the
writes offered the rests, and that all of them go on, or all but the last. -/
structure Delivery.ToldBy {ω : Type} (offered : List UInt8) (requests : List Request)
    (delivery : Delivery ω) : Prop where
  accepted : requests.flatMap Request.accepted = delivery.accepted
  rests : OffersRests offered requests
  succeeds : delivery.result = .ok () -> ∀ request ∈ requests, request.GoesOn
  fails : ∀ {failure}, delivery.result = .error failure ->
    ∃ before rest answer, requests = before ++ [.write rest answer] ∧
      (∀ request ∈ before, request.GoesOn) ∧ Reports answer failure

namespace Writer.OffersRests

variable {bytes : List UInt8} {requests : List Request}

theorem nil (bytes : List UInt8) : OffersRests bytes [] := by
  intro before rest answer isFront
  simp at isFront

/-- The first write offers everything, and the later ones what it has left. -/
theorem cons {left : List UInt8} {answer : Except IoFailure Nat}
    (rests : OffersRests left requests) (nonempty : bytes ≠ [])
    (split : (Request.write bytes answer).accepted ++ left = bytes) :
    OffersRests bytes (.write bytes answer :: requests) := by
  intro before rest last isFront
  cases before with
  | nil =>
      obtain ⟨⟨⟩, -⟩ := List.cons_prefix_cons.mp isFront
      exact ⟨nonempty, rfl⟩
  | cons first others =>
      obtain ⟨rfl, laterFront⟩ := List.cons_prefix_cons.mp isFront
      obtain ⟨nonemptyRest, whole⟩ := rests _ _ _ laterFront
      refine ⟨nonemptyRest, ?_⟩
      rw [List.flatMap_cons, List.append_assoc, whole, split]

/-- A flush offers nothing. -/
theorem flush (rests : OffersRests bytes requests) (answer : Except IoFailure Unit) :
    OffersRests bytes (requests ++ [.flush answer]) := by
  intro before rest last isFront
  rcases List.prefix_concat_iff.mp isFront with whole | within
  · have sameLast := (List.append_inj' whole rfl).2
    cases sameLast
  · exact rests _ _ _ within

end Writer.OffersRests

namespace Delivery.ToldBy

variable {ω : Type} {offered left : List UInt8} {requests : List Request}
  {answer : Except IoFailure Nat}

/-- There is nothing to tell about a delivery of nothing. -/
theorem nothing (writer : ω) : ToldBy [] [] ⟨.ok (), [], writer⟩ where
  accepted := rfl
  rests := OffersRests.nil []
  succeeds := by simp
  fails := by simp

/-- A write that ends a delivery tells all about it. -/
theorem ended {failure : IoFailure} (reports : Reports answer failure) (nonempty : offered ≠ [])
    (writer : ω) : ToldBy offered [.write offered answer] ⟨.error failure, [], writer⟩ where
  accepted := by simp [reports.accepted_eq_nil]
  rests := by
    have nothingTaken := reports.accepted_eq_nil offered
    exact (OffersRests.nil offered).cons nonempty (by rw [nothingTaken, List.nil_append])
  succeeds := by simp
  fails := by
    rintro _ ⟨⟩
    exact ⟨[], offered, answer, rfl, by simp, reports⟩

/-- A write behind which a delivery goes on is told before the others. -/
theorem goesOn {later : Delivery ω} (told : later.ToldBy left requests)
    (takesSome : TakesSome answer) (nonempty : offered ≠ [])
    (split : (Request.write offered answer).accepted ++ left = offered) :
    ToldBy offered (.write offered answer :: requests)
      ⟨later.result, (Request.write offered answer).accepted ++ later.accepted,
        later.writer⟩ where
  accepted := by rw [List.flatMap_cons, told.accepted]
  rests := told.rests.cons nonempty split
  succeeds := by
    intro succeeds
    exact List.forall_mem_cons.mpr ⟨takesSome, told.succeeds succeeds⟩
  fails := by
    intro failure fails
    obtain ⟨before, rest, last, rfl, goOn, reports⟩ := told.fails fails
    exact ⟨_ :: before, rest, last, rfl, List.forall_mem_cons.mpr ⟨takesSome, goOn⟩, reports⟩

end Delivery.ToldBy

namespace Stream

variable {ω : Type}

/-- The three ways in which putting a character ends, by the requests that were made of
the writer: all bytes of the character were accepted and one flush followed, which
succeeded; or a write ended the delivery with a part of the bytes missing, and no flush
followed; or all bytes were accepted and the flush failed. -/
inductive PutsBy (character : Char) (stream : Stream ω) :
    List Request -> Except IoFailure Unit × Stream ω -> Option FailedPut -> Prop where
  | delivered {writes : List Request} {writer : ω}
      (goOn : ∀ request ∈ writes, request.GoesOn)
      (accepted : writes.flatMap Request.accepted = stream.codec.encode character) :
      PutsBy character stream (writes ++ [.flush (.ok ())])
        (.ok (), ⟨stream.codec, writer, stream.delivered ++ stream.codec.encode character,
          stream.flushes + 1⟩)
        none
  | cut {writes : List Request} {taken rest : List UInt8} {answer : Except IoFailure Nat}
      {failure : IoFailure} {writer : ω} (goOn : ∀ request ∈ writes, request.GoesOn)
      (reports : Reports answer failure) (accepted : writes.flatMap Request.accepted = taken)
      (proper : taken ++ rest = stream.codec.encode character ∧ rest ≠ []) :
      PutsBy character stream (writes ++ [.write rest answer])
        (.error failure, ⟨stream.codec, writer, stream.delivered ++ taken, stream.flushes⟩)
        (some (.inWrite taken failure))
  | unflushed {writes : List Request} {failure : IoFailure} {writer : ω}
      (goOn : ∀ request ∈ writes, request.GoesOn)
      (accepted : writes.flatMap Request.accepted = stream.codec.encode character) :
      PutsBy character stream (writes ++ [.flush (.error failure)])
        (.error failure, ⟨stream.codec, writer,
          stream.delivered ++ stream.codec.encode character, stream.flushes⟩)
        (some (.inFlush failure))

/-- The way in which a put ended can be read off its requests and its result. -/
theorem PutsBy.eq_told {character : Char} {stream : Stream ω} {requests : List Request}
    {answer : Except IoFailure Unit × Stream ω} {failed? : Option FailedPut}
    (puts : PutsBy character stream requests answer failed?) :
    failed? = match answer.1, requests.getLast? with
      | .ok (), _ => none
      | .error failure, some (.write _ _) =>
          some (.inWrite (requests.flatMap Request.accepted) failure)
      | .error failure, _ => some (.inFlush failure) := by
  cases puts with
  | delivered => rfl
  | cut goOn reports accepted => simp [accepted, reports.accepted_eq_nil]
  | unflushed => simp

variable {character : Char} {stream : Stream ω} {requests : List Request}
  {answer : Except IoFailure Unit × Stream ω} {failed? : Option FailedPut}

/-- The requests of a put are those of an attempt that ended in the same way. -/
theorem PutsBy.toldBy (puts : PutsBy character stream requests answer failed?) :
    PutAttempt.ToldBy requests ⟨stream.codec.encode character, failed?⟩ := by
  cases puts with
  | delivered goOn accepted => exact .succeeded goOn accepted
  | cut goOn reports accepted proper => exact .cut goOn reports accepted proper
  | unflushed goOn accepted => exact .unflushed goOn accepted

/-- A put does not change the codec. -/
theorem PutsBy.codec_eq (puts : PutsBy character stream requests answer failed?) :
    answer.2.codec = stream.codec := by
  cases puts <;> rfl

/-- A put that failed reports the failure. -/
theorem PutsBy.result_eq (puts : PutsBy character stream requests answer failed?) :
    answer.1 = match failed? with
      | none => .ok ()
      | some failed => .error failed.failure := by
  cases puts <;> rfl

/-- A put that succeeded ended in the first way. -/
theorem PutsBy.failed?_eq_none (puts : PutsBy character stream requests answer failed?)
    (succeeds : answer.1 = .ok ()) : failed? = none := by
  rw [puts.eq_told, succeeds]

/-- The bytes that a put adds to those of a stream are the ones that the writer accepted. -/
theorem PutsBy.delivered_eq (puts : PutsBy character stream requests answer failed?) :
    answer.2.delivered.toList =
      stream.delivered.toList ++ requests.flatMap Request.accepted := by
  rw [puts.toldBy.flatMap_accepted]
  cases puts <;> simp [PutAttempt.accepted, FailedPut.accepted]

/-- The flushes that a put adds to those of a stream are the ones that succeeded. -/
theorem PutsBy.flushes_eq (puts : PutsBy character stream requests answer failed?) :
    answer.2.flushes =
      stream.flushes + (requests.filterMap Request.flushAnswer?).countP Except.isOk := by
  rw [puts.toldBy.filterMap_flushAnswer?]
  cases puts <;> rfl

end Stream

variable {ω : Type} [Writer ω]

/-- What a recorder notes of a delivery tells about it. -/
theorem Recorder.toldBy_deliver (offered : List UInt8) (recorder : Recorder ω) :
    ∃ requests, (deliver offered recorder).writer.requests = recorder.requests ++ requests ∧
      (deliver offered recorder).ToldBy offered requests := by
  fun_induction deliver offered recorder with
  | case1 recorder => exact ⟨[], (List.append_nil _).symm, .nothing recorder⟩
  | case2 offered recorder nonempty next answer =>
      exact ⟨_, (of_write answer).2, .ended .tookNothing nonempty next⟩
  | case3 offered recorder nonempty count next answer atMost later inductionHypothesis =>
      have takesSome : TakesSome (.ok (count + 1)) := Nat.succ_pos count
      obtain ⟨requests, noted, told⟩ := inductionHypothesis
      refine ⟨_, ?_, told.goesOn takesSome nonempty (List.take_append_drop _ _)⟩
      rw [noted, (of_write answer).2, List.append_assoc, List.singleton_append]
  | case4 offered recorder nonempty failure next answer interrupted less inductionHypothesis =>
      have takesSome : TakesSome (.error failure) := interrupted
      obtain ⟨requests, noted, told⟩ := inductionHypothesis
      refine ⟨_, ?_, told.goesOn takesSome nonempty (List.nil_append _)⟩
      rw [noted, (of_write answer).2, List.append_assoc, List.singleton_append]
  | case5 offered recorder nonempty failure next answer lasting =>
      have notInterrupted : failure.kind ≠ .interrupted := by
        simpa [IoFailure.isInterruption] using lasting
      exact ⟨_, (of_write answer).2, .ended (.failed notInterrupted) nonempty next⟩

namespace Stream

/-- What a recorder notes of a put tells in which way it ended. -/
theorem PutsAs.exists_putsBy {character : Char} {stream : Stream (Recorder ω)}
    {answer : Except IoFailure Unit × Stream (Recorder ω)}
    (puts : PutsAs character stream answer) :
    ∃ requests failed?, answer.2.writer.requests = stream.writer.requests ++ requests ∧
      OffersRests (stream.codec.encode character) requests ∧
      PutsBy character (stream.map Recorder.writer) requests
        (answer.1, answer.2.map Recorder.writer) failed? := by
  obtain ⟨writes, noted, told⟩ :=
    Recorder.toldBy_deliver (stream.codec.encode character) stream.writer
  cases puts with
  | @delivered writer flushed complete flush =>
      rw [complete] at noted told
      refine ⟨_, _, ?_, told.rests.flush _, .delivered (told.succeeds rfl) told.accepted⟩
      rw [(Recorder.of_flush flush).2, noted, List.append_assoc]
  | @cut failure taken writer partly isFront proper lasting =>
      rw [partly] at noted told
      obtain ⟨before, rest, last, rfl, goOn, reports⟩ := told.fails rfl
      obtain ⟨nonempty, whole⟩ := told.rests before rest last (List.prefix_refl _)
      have accepted : before.flatMap Request.accepted = taken := by
        simpa [reports.accepted_eq_nil] using told.accepted
      rw [accepted] at whole
      exact ⟨_, _, noted, told.rests, .cut goOn reports accepted ⟨whole, nonempty⟩⟩
  | @unflushed failure writer flushed complete flush =>
      rw [complete] at noted told
      refine ⟨_, _, ?_, told.rests.flush _, .unflushed (told.succeeds rfl) told.accepted⟩
      rw [(Recorder.of_flush flush).2, noted, List.append_assoc]

/-- What putting a character comes to whatever the writer answers. It ends in one of the
three ways and in one only; a recorder in the place of the writer, off which the requests
are read, is not noticed; each write offers the bytes that were not accepted yet, and there
are some; and before a patient front all is as without it, but that the writes that were
interrupted are not seen. -/
structure EndsInOneWay (character : Char) (stream : Stream ω) : Prop where
  ends : ∃! failed?, PutsBy character stream (stream.requests character)
    (Sink.put character stream) failed?
  recorded : Sink.put character stream =
    ((Sink.put character stream.watched).1,
      (Sink.put character stream.watched).2.map Recorder.writer)
  rests : OffersRests (stream.codec.encode character) (stream.requests character)
  patient : Sink.put character (stream.map Patient.mk) =
    ((Sink.put character stream).1, (Sink.put character stream).2.map Patient.mk)
  patient_requests : (stream.map Patient.mk).requests character =
    (stream.requests character).filter fun request => !request.isInterrupted

/-- Every put ends in one of the three ways. -/
theorem endsInOneWay (character : Char) (stream : Stream ω) : EndsInOneWay character stream := by
  obtain ⟨requests, failed?, noted, rests, puts⟩ :=
    (stream.watched.put_cases character).exists_putsBy
  obtain rfl : stream.requests character = requests := noted
  have putsSo : PutsBy character stream (stream.requests character) (Sink.put character stream)
      failed? := by
    rw [put_watched]
    exact puts
  have alone : ∀ other, PutsBy character stream (stream.requests character)
      (Sink.put character stream) other -> other = failed? :=
    fun other putsToo => putsToo.eq_told.trans putsSo.eq_told.symm
  exact ⟨⟨failed?, putsSo, alone⟩, put_watched character stream, rests,
    put_patient character stream, requests_patient character stream⟩

/-- A put only adds to the bytes that were accepted. -/
theorem delivered_prefix_put (character : Char) (stream : Stream ω) :
    stream.delivered.toList <+: (Sink.put character stream).2.delivered.toList := by
  have puts := stream.put_cases character
  generalize Sink.put character stream = answer at puts
  cases puts <;> simp

/-- So does a series of puts, going on after failures. -/
theorem delivered_prefix_of_mem_putAll {characters : List Char} {stream : Stream ω}
    {answer : Except IoFailure Unit × Stream ω} (isAnswer : answer ∈ putAll characters stream) :
    stream.delivered.toList <+: answer.2.delivered.toList := by
  induction characters generalizing stream with
  | nil => simp [putAll] at isAnswer
  | cons character rest inductionHypothesis =>
      have first := stream.delivered_prefix_put character
      simp only [putAll, List.mem_cons] at isAnswer
      rcases isAnswer with rfl | isLater
      · exact first
      · exact first.trans (inductionHypothesis isLater)

/-- Of two moments in a series of puts the later one keeps what was accepted. -/
theorem pairwise_putAll (characters : List Char) (stream : Stream ω) :
    (stream :: (putAll characters stream).map Prod.snd).Pairwise fun earlier later =>
      earlier.delivered.toList <+: later.delivered.toList := by
  induction characters generalizing stream with
  | nil => simp [putAll]
  | cons character rest inductionHypothesis =>
      refine List.pairwise_cons.mpr ⟨?_, inductionHypothesis _⟩
      rintro later isLater
      obtain ⟨answer, isAnswer, rfl⟩ := List.mem_map.mp isLater
      exact delivered_prefix_of_mem_putAll isAnswer

end Stream

/-- For every codec, every character and every writer, whatever it answers: putting the
character ends in exactly one of three ways, and in a series of puts, going on after
failures, no byte that was accepted is ever altered. -/
theorem put_endsInOneWay (stream : Stream ω) :
    (∀ character, stream.EndsInOneWay character) ∧
      ∀ characters, (stream :: (putAll characters stream).map Prod.snd).Pairwise
        fun earlier later => earlier.delivered.toList <+: later.delivered.toList :=
  ⟨fun character => stream.endsInOneWay character,
    fun characters => stream.pairwise_putAll characters⟩

end Brainfuck
