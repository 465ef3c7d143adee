import Brainfuck.Proofs.Output.Delivery

/-!
# Recorded requests

What a stream asks of its writer is seen by putting a `Recorder` in the place of the
writer: it hands on each request and notes it with the answer. Putting a character does
not notice such a change, as long as deliveries and flushes do not, `Unnoticed.put`. So
`Stream.requests`, which are read off the recorder, are those that are made of the writer
itself.
-/

namespace Brainfuck

namespace Writer

/-- Something that a writer was asked, with its answer. -/
inductive Request where
  | write (offered : List UInt8) (answer : Except IoFailure Nat)
  | flush (answer : Except IoFailure Unit)

/-- The bytes that were taken of those that were offered. -/
def Request.accepted : Request -> List UInt8
  | .write offered (.ok count) => offered.take count
  | .write _ (.error _) => []
  | .flush _ => []

/-- The answer, if it was a flush that was asked for. -/
def Request.flushAnswer? : Request -> Option (Except IoFailure Unit)
  | .write .. => none
  | .flush answer => some answer

/-- Whether a request is a write behind which a delivery goes on. -/
def Request.GoesOn : Request -> Prop
  | .write _ answer => TakesSome answer
  | .flush _ => False

/-- Among writes behind which a delivery goes on there is no flush. -/
theorem filterMap_flushAnswer?_of_goesOn {writes : List Request}
    (goOn : ∀ request ∈ writes, request.GoesOn) : writes.filterMap Request.flushAnswer? = [] := by
  rw [List.filterMap_eq_nil_iff]
  intro request isWrite
  cases request with
  | write => rfl
  | flush => exact (goOn _ isWrite).elim

/-- How an answer to a write is reported that ends a delivery: taking nothing is a failure
of its own, and any failure but an interruption is reported as it is. -/
inductive Reports : Except IoFailure Nat -> IoFailure -> Prop where
  | tookNothing : Reports (.ok 0) .writeZero
  | failed {failure : IoFailure} (lasting : failure.kind ≠ .interrupted) :
      Reports (.error failure) failure

/-- A write that ends a delivery has taken nothing. -/
theorem Reports.accepted_eq_nil {answer : Except IoFailure Nat} {failure : IoFailure}
    (reports : Reports answer failure) (rest : List UInt8) :
    (Request.write rest answer).accepted = [] := by
  cases reports <;> rfl

variable {ω φ : Type} [Writer ω] [Writer φ]

/-- A change of writers that deliveries and flushes do not notice: they come to the same
before and after it. -/
structure Unnoticed (change : φ -> ω) : Prop where
  delivers : ∀ (offered : List UInt8) (writer : φ), deliver offered (change writer) =
    ⟨(deliver offered writer).result, (deliver offered writer).accepted,
      change (deliver offered writer).writer⟩
  flushes : ∀ writer : φ,
    Writer.flush (change writer) = ((Writer.flush writer).1, change (Writer.flush writer).2)

end Writer

/-- A stream with another writer in the place of its own. -/
def Stream.map {ω φ : Type} (change : φ -> ω) (stream : Stream φ) : Stream ω where
  codec := stream.codec
  writer := change stream.writer
  delivered := stream.delivered
  flushes := stream.flushes

variable {ω φ : Type} [Writer ω] [Writer φ]

/-- What deliveries and flushes do not notice makes no difference to a character that is
put. -/
theorem Writer.Unnoticed.put {change : φ -> ω} (unnoticed : Unnoticed change)
    (character : Char) (stream : Stream φ) :
    Sink.put character (stream.map change) =
      ((Sink.put character stream).1, (Sink.put character stream).2.map change) := by
  have delivery := unnoticed.delivers (stream.codec.encode character) stream.writer
  show Stream.put character (stream.map change) = _
  have puts := stream.put_cases character
  generalize Sink.put character stream = answer at puts
  cases puts with
  | @delivered writer flushed complete flush =>
      rw [complete] at delivery
      have flushChanged := unnoticed.flushes writer
      rw [flush] at flushChanged
      simp only [Stream.put, Stream.map, delivery, flushChanged]
  | cut partly =>
      rw [partly] at delivery
      simp only [Stream.put, Stream.map, delivery]
  | @unflushed failure writer flushed complete flush =>
      rw [complete] at delivery
      have flushChanged := unnoticed.flushes writer
      rw [flush] at flushChanged
      simp only [Stream.put, Stream.map, delivery, flushChanged]

/-- A writer with the requests that were made of it, the first one first. -/
structure Recorder (ω : Type) where
  writer : ω
  requests : List Writer.Request

/-- The bytes that were accepted of all those that were offered. -/
def Recorder.accepted {ω : Type} (recorder : Recorder ω) : List UInt8 :=
  recorder.requests.flatMap Writer.Request.accepted

/-- The answers to the flushes, the first one first. -/
def Recorder.flushAnswers {ω : Type} (recorder : Recorder ω) : List (Except IoFailure Unit) :=
  recorder.requests.filterMap Writer.Request.flushAnswer?

/-- What later requests have accepted comes behind what was accepted before. -/
theorem Recorder.accepted_of_noted {ω : Type} {recorder next : Recorder ω}
    {later : List Writer.Request} (noted : next.requests = recorder.requests ++ later) :
    next.accepted = recorder.accepted ++ later.flatMap Writer.Request.accepted := by
  rw [accepted, noted, List.flatMap_append, accepted]

/-- The answers to later flushes come behind those from before. -/
theorem Recorder.flushAnswers_of_noted {ω : Type} {recorder next : Recorder ω}
    {later : List Writer.Request} (noted : next.requests = recorder.requests ++ later) :
    next.flushAnswers =
      recorder.flushAnswers ++ later.filterMap Writer.Request.flushAnswer? := by
  rw [flushAnswers, noted, List.filterMap_append, flushAnswers]

/-- A recorder answers as its writer does. -/
instance : Writer (Recorder ω) where
  write offered recorder :=
    let (answer, next) := Writer.write offered recorder.writer
    (answer, ⟨next, recorder.requests ++ [.write offered answer]⟩)
  flush recorder :=
    let (answer, flushed) := Writer.flush recorder.writer
    (answer, ⟨flushed, recorder.requests ++ [.flush answer]⟩)
  patience recorder := Writer.patience recorder.writer
  count_le {offered recorder next count} answer := by
    have taken : (Writer.write offered recorder.writer).1 = .ok count :=
      congrArg Prod.fst answer
    exact Writer.count_le (Prod.ext taken rfl)
  patience_lt {offered recorder next failure} answer interrupted := by
    have failed : (Writer.write offered recorder.writer).1 = .error failure :=
      congrArg Prod.fst answer
    have onward : (Writer.write offered recorder.writer).2 = next.writer :=
      congrArg (fun answer => answer.2.writer) answer
    exact Writer.patience_lt (Prod.ext failed onward) interrupted

namespace Recorder

variable {offered : List UInt8} {recorder next : Recorder ω}

/-- A recorder notes what its writer answers to a write. -/
theorem write_eq {after : ω} {answer : Except IoFailure Nat}
    (written : Writer.write offered recorder.writer = (answer, after)) :
    Writer.write offered recorder =
      (answer, ⟨after, recorder.requests ++ [.write offered answer]⟩) := by
  simp only [Writer.write]
  rw [written]

/-- A recorder notes what its writer answers to a flush. -/
theorem flush_eq {after : ω} {answer : Except IoFailure Unit}
    (flushed : Writer.flush recorder.writer = (answer, after)) :
    Writer.flush recorder = (answer, ⟨after, recorder.requests ++ [.flush answer]⟩) := by
  simp only [Writer.flush]
  rw [flushed]

/-- What it means that a recorder has answered a write. -/
theorem of_write {answer : Except IoFailure Nat}
    (written : Writer.write offered recorder = (answer, next)) :
    Writer.write offered recorder.writer = (answer, next.writer) ∧
      next.requests = recorder.requests ++ [.write offered answer] := by
  cases written
  exact ⟨rfl, rfl⟩

/-- What it means that a recorder has answered a flush. -/
theorem of_flush {answer : Except IoFailure Unit}
    (flushed : Writer.flush recorder = (answer, next)) :
    Writer.flush recorder.writer = (answer, next.writer) ∧
      next.requests = recorder.requests ++ [.flush answer] := by
  cases flushed
  exact ⟨rfl, rfl⟩

/-- Recording is not noticed. -/
theorem unnoticed : Writer.Unnoticed (Recorder.writer : Recorder ω -> ω) where
  delivers offered recorder := by
    fun_induction deliver offered recorder with
    | case1 => exact deliver_nil _
    | case2 offered recorder nonempty next answer =>
        exact deliver_of_none nonempty (of_write answer).1
    | case3 offered recorder nonempty count next answer atMost later inductionHypothesis =>
        rw [deliver_of_some nonempty (of_write answer).1, inductionHypothesis]
    | case4 offered recorder nonempty failure next answer interrupted less inductionHypothesis =>
        rw [deliver_of_interrupted nonempty (of_write answer).1 interrupted, inductionHypothesis]
    | case5 offered recorder nonempty failure next answer lasting =>
        exact deliver_of_lasting nonempty (of_write answer).1 (Bool.eq_false_iff.mpr lasting)
  flushes _ := rfl

end Recorder

namespace Stream

/-- The stream with a recorder in the place of its writer. -/
def watched (stream : Stream ω) : Stream (Recorder ω) :=
  stream.map fun writer => ⟨writer, []⟩

/-- What putting a character asks of the writer, in order. -/
def requests (character : Char) (stream : Stream ω) : List Writer.Request :=
  (Sink.put character stream.watched).2.writer.requests

/-- Putting a character into the watched stream is putting it into the stream itself. -/
theorem put_watched (character : Char) (stream : Stream ω) :
    Sink.put character stream =
      ((Sink.put character stream.watched).1,
        (Sink.put character stream.watched).2.map Recorder.writer) :=
  Recorder.unnoticed.put character stream.watched

end Stream

end Brainfuck
