import Brainfuck.Proofs.Output.Requests

/-!
# Transmissions

What a writer has accepted from a stream, put together from the characters that were put
into it. A `Transmission` is one character with the attempts to put it that failed before
the one that succeeded; `Stream.Carried` is a stream whose recorder has noted the requests
of some transmissions and then those of some failed attempts at the character that comes
next. Each put takes such a stream to another one.
-/

namespace Brainfuck

/-- A character that was put, with the attempts that failed before. -/
structure Transmission (codec : Codec) where
  character : Char
  failed : List FailedPut
  fits : ∀ attempt ∈ failed, attempt.Fits (codec.encode character)

namespace Transmission

variable {codec : Codec}

/-- The attempts: those that failed, and then the one that succeeded. -/
def attempts (transmission : Transmission codec) : List PutAttempt :=
  transmission.failed.map (fun failed => ⟨codec.encode transmission.character, some failed⟩) ++
    [⟨codec.encode transmission.character, none⟩]

/-- The bytes that were accepted: those of each failed attempt, and then all. -/
def accepted (transmission : Transmission codec) : List UInt8 :=
  transmission.attempts.flatMap PutAttempt.accepted

/-- What the flushes were answered. -/
def flushAnswers (transmission : Transmission codec) : List (Except IoFailure Unit) :=
  transmission.attempts.flatMap PutAttempt.flushAnswers

/-- The failures that were reported. -/
def failures (transmission : Transmission codec) : List IoFailure :=
  transmission.failed.map FailedPut.failure

/-- In one byte for each character nothing is accepted twice if no flush fails. -/
theorem accepted_eq_encode (transmission : Transmission codec) (narrow : codec ≠ .utf8)
    (flushed : ∀ answer ∈ transmission.flushAnswers, answer = .ok ()) :
    transmission.accepted = codec.encode transmission.character := by
  obtain ⟨byte, single⟩ : ∃ byte, codec.encode transmission.character = [byte] := by
    cases codec with
    | ascii => exact ⟨_, rfl⟩
    | latin1 => exact ⟨_, rfl⟩
    | utf8 => exact absurd rfl narrow
  have nothing : transmission.failed.flatMap
      (FailedPut.accepted (codec.encode transmission.character)) = [] := by
    rw [List.flatMap_eq_nil_iff]
    intro failed isFailed
    have fits := transmission.fits failed isFailed
    rw [single] at fits ⊢
    refine fits.accepted_eq_nil fun answer isAnswer => flushed answer ?_
    have isAttempt : ⟨_, some failed⟩ ∈ transmission.attempts :=
      List.mem_append_left _ (List.mem_map_of_mem isFailed)
    exact List.mem_flatMap.mpr ⟨_, isAttempt, isAnswer⟩
  rw [accepted, attempts, List.flatMap_append, List.flatMap_map, List.flatMap_singleton]
  exact congrArg (· ++ codec.encode transmission.character) nothing

end Transmission

namespace Stream

variable {ω : Type}

/-- A stream whose recorder has noted the requests of these transmissions, and then those
of these failed attempts at a character with these bytes; `met` are all failures. -/
structure Carried {codec : Codec} (transmissions : List (Transmission codec))
    (pending : List FailedPut) (encoded : List UInt8) (met : List IoFailure)
    (stream : Stream (Recorder ω)) : Prop where
  codec_eq : stream.codec = codec
  failures : met = transmissions.flatMap Transmission.failures ++ pending.map FailedPut.failure
  told : PutAttempt.AllToldBy stream.writer.requests
    (transmissions.flatMap Transmission.attempts ++
      pending.map fun failed => ⟨encoded, some failed⟩)

/-- A stream that nothing has gone through has carried nothing. -/
theorem carried_fresh (codec : Codec) (writer : ω) (encoded : List UInt8) :
    (fresh writer codec).watched.Carried ([] : List (Transmission codec)) [] encoded [] :=
  ⟨rfl, rfl, .nil⟩

variable {codec : Codec} {transmissions : List (Transmission codec)} {pending : List FailedPut}
  {character : Char} {met : List IoFailure} {stream : Stream (Recorder ω)}

/-- Without failed attempts it does not matter which character comes next. -/
theorem Carried.congr {encoded : List UInt8}
    (carried : stream.Carried transmissions [] encoded met) (other : List UInt8) :
    stream.Carried transmissions [] other met :=
  ⟨carried.codec_eq, carried.failures, carried.told⟩

variable [Writer ω]

/-- What a put makes of a stream that has carried some transmissions: it has carried
one more, or there is one failed attempt more. -/
theorem Carried.put
    (carried : stream.Carried transmissions pending (codec.encode character) met)
    (fits : ∀ attempt ∈ pending, attempt.Fits (codec.encode character)) :
    (∃ written, Sink.put character stream = (.ok (), written) ∧
        written.Carried (transmissions ++ [⟨character, pending, fits⟩]) []
          (codec.encode character) met) ∨
      ∃ attempt written, Sink.put character stream = (.error attempt.failure, written) ∧
        attempt.Fits (codec.encode character) ∧
        written.Carried transmissions (pending ++ [attempt]) (codec.encode character)
          (met ++ [attempt.failure]) := by
  obtain ⟨requests, failed?, noted, -, puts⟩ := (stream.put_cases character).exists_putsBy
  obtain ⟨rfl, failures, told⟩ := carried
  have sameCodec : (Sink.put character stream).2.codec = stream.codec := puts.codec_eq
  have result : (Sink.put character stream).1 = _ := puts.result_eq
  have toldToo : PutAttempt.ToldBy requests ⟨stream.codec.encode character, failed?⟩ := puts.toldBy
  have toldMore := told.concat toldToo
  rw [← noted] at toldMore
  cases failed? with
  | none =>
      refine .inl ⟨_, Prod.ext result rfl, sameCodec, ?_, ?_⟩
      · simp [failures, Transmission.failures]
      · simpa [Transmission.attempts] using toldMore
  | some failed =>
      refine .inr ⟨failed, _, Prod.ext result rfl, toldToo.fits, sameCodec, ?_, ?_⟩
      · simp [failures]
      · simpa using toldMore

/-- Everything that the writer may still answer. -/
def answersLeft (stream : Stream WriteScript) : Nat :=
  stream.writer.writes.length + stream.writer.flushes.length

/-- A put that fails leaves the writer with fewer answers. -/
theorem answersLeft_put_lt {character : Char} {stream : Stream WriteScript} {failure : IoFailure}
    (fails : (Sink.put character stream).1 = .error failure) :
    (Sink.put character stream).2.answersLeft < stream.answersLeft := by
  have shorter := WriteScript.length_deliver (stream.codec.encode character) stream.writer
  have untouched := WriteScript.flushes_deliver (stream.codec.encode character) stream.writer
  have puts := put_cases character stream
  generalize Sink.put character stream = answer at puts fails
  cases puts with
  | delivered => cases fails
  | cut partly =>
      simp only [partly] at shorter untouched
      have fewer := shorter.2 (by simp)
      simp only [answersLeft, untouched]
      omega
  | unflushed complete flush =>
      simp only [complete] at shorter untouched
      obtain ⟨splitRest, sameWrites⟩ := WriteScript.flushes_of_flush_error flush
      have noMore := shorter.1
      simp only [answersLeft, ← untouched, splitRest, sameWrites, List.length_cons]
      omega

end Stream

end Brainfuck
