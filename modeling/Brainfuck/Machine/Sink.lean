import Brainfuck.Machine.Codec
import Brainfuck.Machine.IoFailure

/-!
# Sinks

Where the output command writes to. A buffer collects characters and never
fails. A stream encodes each character, offers the bytes to a writer until all
are taken, and then flushes the writer once; it keeps the bytes that the writer
took and counts the flushes.
-/

namespace Brainfuck

/-- Takes a character or fails, and what it has become. -/
class Sink (τ : Type) where
  put : Char -> τ -> Except IoFailure Unit × τ

/-- Puts characters one after another, going on after failures: what became of
each, with the sink as it stood then. -/
def putAll {τ : Type} [Sink τ] : List Char -> τ -> List (Except IoFailure Unit × τ)
  | [], _ => []
  | character :: rest, sink =>
      let answer := Sink.put character sink
      answer :: putAll rest answer.2

/-- Characters collected in memory. -/
structure Buffer where
  text : String
  deriving DecidableEq, Repr

/-- The buffer that has collected nothing. -/
def Buffer.empty : Buffer where
  text := ""

instance : Sink Buffer where
  put character buffer := (.ok (), ⟨buffer.text.push character⟩)

/-- Takes some of the bytes it is offered, or fails taking none. Only finitely
many interruptions come in a row: each one uses up some of the writer's
patience. -/
class Writer (ω : Type) where
  write : List UInt8 -> ω -> Except IoFailure Nat × ω
  flush : ω -> Except IoFailure Unit × ω
  patience : ω -> Nat
  count_le : forall {offered : List UInt8} {writer next : ω} {count : Nat},
    write offered writer = (.ok count, next) -> count ≤ offered.length
  patience_lt : forall {offered : List UInt8} {writer next : ω} {failure : IoFailure},
    write offered writer = (.error failure, next) -> failure.isInterruption = true ->
      patience next < patience writer

/-- What has come of offering bytes to a writer. -/
structure Delivery (ω : Type) where
  result : Except IoFailure Unit
  accepted : List UInt8
  writer : ω

/-- Offers bytes until all are taken. Taking none of them is a failure of its
own, an interrupted write is tried again, and any other failure ends the
delivery with what was taken before. Nothing is written when nothing is left. -/
def deliver {ω : Type} [Writer ω] (offered : List UInt8) (writer : ω) : Delivery ω :=
  if offered = [] then
    ⟨.ok (), [], writer⟩
  else
    match answer : Writer.write offered writer with
    | (.ok 0, next) => ⟨.error .writeZero, [], next⟩
    | (.ok (count + 1), next) =>
        have := Writer.count_le answer
        let later := deliver (offered.drop (count + 1)) next
        ⟨later.result, offered.take (count + 1) ++ later.accepted, later.writer⟩
    | (.error failure, next) =>
        if interrupted : failure.isInterruption = true then
          have := Writer.patience_lt answer interrupted
          deliver offered next
        else
          ⟨.error failure, [], next⟩
termination_by (offered.length, Writer.patience writer)
decreasing_by
  · apply Prod.Lex.left
    simp
    omega
  · apply Prod.Lex.right
    assumption

/-- A writer behind a codec, with the bytes it took and the flushes it did. -/
structure Stream (ω : Type) where
  codec : Codec
  writer : ω
  delivered : Array UInt8
  flushes : Nat

namespace Stream

/-- A stream that nothing has gone through. -/
def fresh {ω : Type} (writer : ω) (codec : Codec) : Stream ω where
  codec := codec
  writer := writer
  delivered := #[]
  flushes := 0

/-- Delivers the bytes of a character and flushes once they are all taken. -/
def put {ω : Type} [Writer ω] (character : Char) (stream : Stream ω) :
    Except IoFailure Unit × Stream ω :=
  match deliver (stream.codec.encode character) stream.writer with
  | ⟨.error failure, accepted, writer⟩ =>
      (.error failure, { stream with writer := writer, delivered := stream.delivered ++ accepted })
  | ⟨.ok (), accepted, writer⟩ =>
      match Writer.flush writer with
      | (.error failure, flushed) =>
          (.error failure,
            { stream with writer := flushed, delivered := stream.delivered ++ accepted })
      | (.ok (), flushed) =>
          (.ok (),
            { stream with
              writer := flushed
              delivered := stream.delivered ++ accepted
              flushes := stream.flushes + 1 })

end Stream

instance {ω : Type} [Writer ω] : Sink (Stream ω) where
  put := Stream.put

/-- One answer of a scripted writer: it takes at most so many bytes, takes all,
or fails. -/
inductive WriteAnswer where
  | upTo (count : Nat)
  | all
  | failure (failure : IoFailure)
  deriving DecidableEq, Repr

/-- A writer that answers as it is told, one answer for each write and one for
each flush; it takes everything when the answers are used up. -/
structure WriteScript where
  writes : List WriteAnswer
  flushes : List (Option IoFailure)
  deriving DecidableEq, Repr

namespace WriteScript

/-- The writer that takes everything. -/
def obliging : WriteScript where
  writes := []
  flushes := []

/-- Answers a write with the first answer left. -/
def write (offered : List UInt8) (script : WriteScript) : Except IoFailure Nat × WriteScript :=
  match script.writes with
  | [] => (.ok offered.length, script)
  | .upTo count :: rest => (.ok (min count offered.length), { script with writes := rest })
  | .all :: rest => (.ok offered.length, { script with writes := rest })
  | .failure failure :: rest => (.error failure, { script with writes := rest })

/-- Answers a flush with the first answer left. -/
def flush (script : WriteScript) : Except IoFailure Unit × WriteScript :=
  match script.flushes with
  | [] => (.ok (), script)
  | none :: rest => (.ok (), { script with flushes := rest })
  | some failure :: rest => (.error failure, { script with flushes := rest })

end WriteScript

instance : Writer WriteScript where
  write := WriteScript.write
  flush := WriteScript.flush
  patience script := script.writes.length
  count_le {offered writer next count} answer := by
    unfold WriteScript.write at answer
    split at answer <;> simp at answer <;> omega
  patience_lt {offered writer next failure} answer _ := by
    unfold WriteScript.write at answer
    split at answer <;> simp at answer
    rename_i rest answers
    rw [answers, ← answer.2]
    simp

/-- A writer that takes everything it is offered and keeps it. -/
structure Spool where
  written : Array UInt8
  deriving DecidableEq, Repr

/-- The spool that nothing was written to. -/
def Spool.empty : Spool where
  written := #[]

instance : Writer Spool where
  write offered spool := (.ok offered.length, ⟨spool.written ++ offered⟩)
  flush spool := (.ok (), spool)
  patience _ := 0
  count_le := by
    rintro offered writer next count ⟨⟩
    exact Nat.le_refl _
  patience_lt := by
    rintro offered writer next failure ⟨⟩

end Brainfuck
