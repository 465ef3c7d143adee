/-!
# Failures of input and output

What a source, a sink, a reader or a writer may answer instead of doing what it
was asked. The kind decides what is retried; the detail is for the reader of the
message.
-/

namespace Brainfuck

/-- The kinds of failure that are told apart. Only interruptions and writes that take nothing
are ever asked for by their kind. -/
inductive IoFailure.Kind where
  /-- Every kind that is not named here; such failures are told apart by their detail. -/
  | other
  | brokenPipe
  | wouldBlock
  | unexpectedEof
  | interrupted
  | writeZero
  deriving DecidableEq, Repr

/-- A transfer that did not happen, with a detail in words. -/
structure IoFailure where
  kind : IoFailure.Kind
  detail : String
  deriving DecidableEq, Repr

namespace IoFailure

/-- A writer took none of the bytes that it was offered. -/
def writeZero : IoFailure where
  kind := .writeZero
  detail := "failed to write whole buffer"

/-- Whether the transfer was merely interrupted and may be asked for again. -/
def isInterruption (failure : IoFailure) : Bool :=
  failure.kind == .interrupted

/-- The sentence that reports a failure. -/
def message (failure : IoFailure) : String :=
  "I/O Error: " ++ failure.detail

end IoFailure

end Brainfuck
