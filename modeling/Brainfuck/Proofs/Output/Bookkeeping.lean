import Brainfuck.Proofs.Output.Requests
import Brainfuck.Proofs.Semantics.LockStep

/-!
# What a stream has booked

A stream keeps the bytes that were accepted and counts its flushes, and it does so by
itself. Whether its books are right is seen beside a machine with a recorder in the place of
the writer: the two go in lock step whatever is run and whatever the writer answers, and at
every moment the bytes that were booked are those of the writes that the recorder has noted,
and the flushes that were counted are those that it has seen succeed,
`Interpreter.inLockStep_watched`.
-/

namespace Brainfuck

variable {σ ω : Type}

/-- A stream beside the one with a recorder that has watched it since it was like the first
one: apart from the recorder they are the same, and the stream has booked the bytes that the
writer has accepted since then and the flushes that have succeeded. -/
structure Stream.WatchedSince (first stream : Stream ω) (watched : Stream (Recorder ω)) :
    Prop where
  same : stream = watched.map Recorder.writer
  delivered : stream.delivered.toList = first.delivered.toList ++ watched.writer.accepted
  flushes : stream.flushes = first.flushes + watched.writer.flushAnswers.countP Except.isOk

/-- A stream and the one that is watched from now on. -/
theorem Stream.watchedSince_watched (stream : Stream ω) :
    stream.WatchedSince stream stream.watched where
  same := rfl
  delivered := (List.append_nil _).symm
  flushes := rfl

/-- The machine with a recorder in the place of its writer. -/
def Machine.watched (machine : Machine σ (Stream ω)) :
    Machine σ (Stream (Recorder ω)) where
  state := ⟨machine.state.tape, machine.state.source, machine.state.sink.watched⟩
  now := machine.now

/-- The interpreter with a recorder in the place of its writer. -/
def Interpreter.watched (interpreter : Interpreter σ (Stream ω)) :
    Interpreter σ (Stream (Recorder ω)) where
  program := interpreter.program
  machine := interpreter.machine.watched

/-- A machine and the one that is watched from now on. -/
theorem Machine.matches_watched (machine : Machine σ (Stream ω)) :
    machine.Matches Eq (Stream.WatchedSince machine.state.sink) machine.watched :=
  ⟨rfl, rfl, rfl, machine.state.sink.watchedSince_watched⟩

variable [Source σ] [Writer ω]

/-- A character is put alike into a stream and into the one that is watched, and booked as
it is noted. -/
theorem Stream.WatchedSince.put {first stream : Stream ω} {watched : Stream (Recorder ω)}
    (since : first.WatchedSince stream watched) (character : Char) :
    AnswersAlike (WatchedSince first) (Sink.put character stream)
      (Sink.put character watched) := by
  obtain ⟨rfl, delivered, flushes⟩ := since
  have unnoticed := Recorder.unnoticed.put character watched
  obtain ⟨requests, failed?, noted, -, puts⟩ := (watched.put_cases character).exists_putsBy
  rw [unnoticed]
  refine ⟨rfl, rfl, ?_, ?_⟩
  · rw [Recorder.accepted_of_noted noted, ← List.append_assoc, ← delivered]
    exact puts.delivered_eq
  · rw [Recorder.flushAnswers_of_noted noted, List.countP_append, ← Nat.add_assoc, ← flushes]
    exact puts.flushes_eq

/-- Machines go in lock step with those that are watched. -/
theorem Machine.lockStep_watched (program : Program) (first : Stream ω) :
    Stepper.LockStep (stepper program) (stepper program)
      (Matches (σ := σ) Eq first.WatchedSince) :=
  lockStep_of_puts program fun character since => since.put character

/-- Whatever an interpreter runs and its writer answers, the one with a recorder in the place
of the writer goes in lock step with it, and at every moment the stream has booked what the
recorder has noted. -/
theorem Interpreter.inLockStep_watched (interpreter : Interpreter σ (Stream ω)) :
    interpreter.InLockStep interpreter.watched
      (Machine.Matches Eq interpreter.machine.state.sink.WatchedSince) :=
  inLockStep_of_lockStep (Machine.lockStep_watched _ _) interpreter.machine.matches_watched

end Brainfuck
