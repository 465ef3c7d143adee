import Brainfuck.Proofs.Output.Recording

/-!
# Patience

A `Patient` front makes a write of the writer behind it again for as long as that is
interrupted, and hands on only what the writer answers then. To a stream nothing is
different before such a front but that no interruption is seen: `Stream.put_patient` says
so of the answer, of the bytes that are accepted and of what the writer has become, and
`Stream.requests_patient` says it of the requests.
-/

namespace Brainfuck

namespace Writer

/-- Whether a write was interrupted. -/
def interrupts : Except IoFailure Nat -> Bool
  | .ok _ => false
  | .error failure => failure.isInterruption

/-- Whether it is a write, and was interrupted. -/
def Request.isInterrupted : Request -> Bool
  | .write _ answer => interrupts answer
  | .flush _ => false

variable {ω : Type} [Writer ω]

/-- The answer to a write that is made again after every interruption. -/
def writePatiently (offered : List UInt8) (writer : ω) : Except IoFailure Nat × ω :=
  match answer : Writer.write offered writer with
  | (.ok count, next) => (.ok count, next)
  | (.error failure, next) =>
      if interrupted : failure.isInterruption = true then
        have := Writer.patience_lt answer interrupted
        writePatiently offered next
      else
        (.error failure, next)
termination_by Writer.patience writer

variable {offered : List UInt8} {writer next : ω} {answer : Except IoFailure Nat}

/-- An answer that does not interrupt is the answer to a patient write as well. -/
theorem writePatiently_of_settled (written : Writer.write offered writer = (answer, next))
    (settled : interrupts answer = false) : writePatiently offered writer = (answer, next) := by
  rw [writePatiently]
  cases answer with
  | ok count => split <;> simp_all
  | error failure => split <;> simp_all [interrupts]

/-- A patient write that is interrupted goes on with what the writer has become. -/
theorem writePatiently_of_interrupted
    (written : Writer.write offered writer = (answer, next))
    (interrupted : interrupts answer = true) :
    writePatiently offered writer = writePatiently offered next := by
  rw [writePatiently]
  cases answer with
  | ok count => cases interrupted
  | error failure => split <;> simp_all [interrupts]

/-- A patient write takes no more than it is offered, and is never interrupted. -/
theorem writePatiently_settles (offered : List UInt8) (writer : ω) :
    (∀ count, (writePatiently offered writer).1 = .ok count -> count ≤ offered.length) ∧
      interrupts (writePatiently offered writer).1 = false := by
  fun_induction writePatiently offered writer with
  | case1 writer count next answer =>
      refine ⟨?_, rfl⟩
      rintro _ ⟨⟩
      exact Writer.count_le answer
  | case2 writer failure next answer interrupted less inductionHypothesis =>
      exact inductionHypothesis
  | case3 writer failure next answer lasting =>
      refine ⟨?_, Bool.eq_false_iff.mpr lasting⟩
      rintro _ ⟨⟩

end Writer

open Writer (interrupts)

/-- A front that writes patiently to the writer behind it. -/
structure Patient (ω : Type) where
  writer : ω

variable {ω : Type} [Writer ω]

/-- A patient front hands on a write as often as it takes, and a flush once. -/
instance : Writer (Patient ω) where
  write offered patient := (Writer.writePatiently offered patient.writer).map id Patient.mk
  flush patient := (Writer.flush patient.writer).map id Patient.mk
  patience _ := 0
  count_le {offered patient next count} answer :=
    (Writer.writePatiently_settles offered patient.writer).1 count (congrArg Prod.fst answer)
  patience_lt {offered patient next failure} answer interrupted := by
    have failed : (Writer.writePatiently offered patient.writer).1 = .error failure :=
      congrArg Prod.fst answer
    have settled := (Writer.writePatiently_settles offered patient.writer).2
    rw [failed] at settled
    exact absurd interrupted (Bool.eq_false_iff.mp settled)

namespace Recorder

/-- The recorder with a patient front in the place of its writer, and without the writes
that were interrupted. -/
def calmed (recorder : Recorder ω) : Recorder (Patient ω) where
  writer := ⟨recorder.writer⟩
  requests := recorder.requests.filter fun request => !request.isInterrupted

variable {offered : List UInt8} {recorder next : Recorder ω} {answer : Except IoFailure Nat}

/-- A write that is not interrupted is answered by the front as well. -/
theorem write_calmed (written : Writer.write offered recorder = (answer, next))
    (settled : interrupts answer = false) :
    Writer.write offered recorder.calmed = (answer, next.calmed) := by
  obtain ⟨behind, requests⟩ := of_write written
  have patiently : Writer.write offered (Patient.mk recorder.writer) = (answer, ⟨next.writer⟩) :=
    congrArg (Prod.map id Patient.mk) (Writer.writePatiently_of_settled behind settled)
  have noted : Writer.write offered recorder.calmed =
      (answer, ⟨⟨next.writer⟩, recorder.calmed.requests ++ [.write offered answer]⟩) :=
    write_eq patiently
  rw [noted]
  simp [calmed, requests, Writer.Request.isInterrupted, settled]

/-- A write that is interrupted is not seen before the front. -/
theorem write_calmed_of_interrupted (written : Writer.write offered recorder = (answer, next))
    (interrupted : interrupts answer = true) :
    Writer.write offered recorder.calmed = Writer.write offered next.calmed := by
  obtain ⟨behind, requests⟩ := of_write written
  have again : Writer.write offered (Patient.mk recorder.writer) =
      Writer.write offered (Patient.mk next.writer) :=
    congrArg (Prod.map id Patient.mk) (Writer.writePatiently_of_interrupted behind interrupted)
  have same : recorder.calmed.requests = next.calmed.requests := by
    simp [calmed, requests, Writer.Request.isInterrupted, interrupted]
  rcases patiently : Writer.write offered (Patient.mk next.writer) with ⟨settled, reached⟩
  have noted : Writer.write offered recorder.calmed =
      (settled, ⟨reached, recorder.calmed.requests ++ [.write offered settled]⟩) :=
    write_eq (again.trans patiently)
  rw [noted, same]
  exact (write_eq patiently).symm

/-- Patience is not noticed. -/
theorem unnoticed_calmed : Writer.Unnoticed (calmed : Recorder ω -> Recorder (Patient ω)) where
  delivers offered recorder := by
    fun_induction deliver offered recorder with
    | case1 => exact deliver_nil _
    | case2 offered recorder nonempty next answer =>
        exact deliver_of_none nonempty (write_calmed answer rfl)
    | case3 offered recorder nonempty count next answer atMost later inductionHypothesis =>
        rw [deliver_of_some nonempty (write_calmed answer rfl), inductionHypothesis]
    | case4 offered recorder nonempty failure next answer interrupted less inductionHypothesis =>
        rw [deliver_congr nonempty (write_calmed_of_interrupted answer interrupted),
          inductionHypothesis]
    | case5 offered recorder nonempty failure next answer lasting =>
        have settled := Bool.eq_false_iff.mpr lasting
        exact deliver_of_lasting nonempty (write_calmed answer settled) settled
  flushes recorder := by
    rcases flushed : Writer.flush recorder with ⟨answer, next⟩
    obtain ⟨behind, requests⟩ := of_flush flushed
    have onward : Writer.flush (Patient.mk recorder.writer) = (answer, ⟨next.writer⟩) :=
      congrArg (Prod.map id Patient.mk) behind
    have noted : Writer.flush recorder.calmed =
        (answer, ⟨⟨next.writer⟩, recorder.calmed.requests ++ [.flush answer]⟩) :=
      flush_eq onward
    rw [noted]
    simp [calmed, requests, Writer.Request.isInterrupted]

end Recorder

namespace Stream

/-- Before a patient front a character is put as it is without the front. -/
theorem put_patient (character : Char) (stream : Stream ω) :
    Sink.put character (stream.map Patient.mk) =
      ((Sink.put character stream).1, (Sink.put character stream).2.map Patient.mk) := by
  have calmed := Recorder.unnoticed_calmed.put character stream.watched
  rw [put_watched character (stream.map Patient.mk), put_watched character stream]
  exact congrArg (fun answer => (answer.1, answer.2.map Recorder.writer)) calmed

/-- A patient front is asked what the writer is asked, but for the writes that were
interrupted. -/
theorem requests_patient (character : Char) (stream : Stream ω) :
    (stream.map Patient.mk).requests character =
      (stream.requests character).filter fun request => !request.isInterrupted :=
  congrArg (fun answer => answer.2.writer.requests)
    (Recorder.unnoticed_calmed.put character stream.watched)

end Stream

end Brainfuck
