import Brainfuck.Proofs.Output.Recording

/-!
# Attempts to put a character

An attempt to put a character succeeds, or it fails while the bytes are written or in the
flush behind them. `PutAttempt.ToldBy` says which requests an attempt makes of the writer
and how they are answered, by how it ends, and `PutAttempt.AllToldBy` says the same of
attempts one after another. What the writer has accepted, and what it has answered to
flushes, is then known attempt by attempt.
-/

namespace Brainfuck

open Writer (Request Reports filterMap_flushAnswer?_of_goesOn)

/-- How an attempt to put a character failed: while it was written, with some of
its bytes taken, or in the flush after all were taken. -/
inductive FailedPut where
  | inWrite (taken : List UInt8) (failure : IoFailure)
  | inFlush (failure : IoFailure)
  deriving DecidableEq, Repr

namespace FailedPut

/-- The failure that was reported. -/
def failure : FailedPut -> IoFailure
  | .inWrite _ failure => failure
  | .inFlush failure => failure

/-- What the flush was answered, if it came to one. -/
def flushAnswers : FailedPut -> List (Except IoFailure Unit)
  | .inWrite .. => []
  | .inFlush failure => [.error failure]

/-- The bytes that were accepted of a character with these bytes. -/
def accepted (encoded : List UInt8) : FailedPut -> List UInt8
  | .inWrite taken _ => taken
  | .inFlush _ => encoded

/-- A failed write has taken a proper prefix of the bytes. -/
def Fits (encoded : List UInt8) : FailedPut -> Prop
  | .inWrite taken _ => taken <+: encoded ∧ taken ≠ encoded
  | .inFlush _ => True

/-- Of a single byte a failed write has taken nothing. -/
theorem Fits.accepted_eq_nil {byte : UInt8} {failed : FailedPut} (fits : failed.Fits [byte])
    (flushed : ∀ answer ∈ failed.flushAnswers, answer = .ok ()) : failed.accepted [byte] = [] := by
  cases failed with
  | inFlush failure => simp [flushAnswers] at flushed
  | inWrite taken failure =>
      obtain ⟨isFront, proper⟩ := fits
      rcases List.prefix_cons_iff.mp isFront with rfl | ⟨rest, rfl, isNil⟩
      · rfl
      · rw [List.prefix_nil.mp isNil] at proper
        exact absurd rfl proper

end FailedPut

/-- An attempt to put a character with these bytes, and how it failed, if it did. -/
structure PutAttempt where
  encoded : List UInt8
  failed? : Option FailedPut

namespace PutAttempt

/-- The bytes that were accepted: all of them unless a write failed. -/
def accepted : PutAttempt -> List UInt8
  | ⟨encoded, none⟩ => encoded
  | ⟨encoded, some failed⟩ => failed.accepted encoded

/-- What the flush was answered, if it came to one. -/
def flushAnswers : PutAttempt -> List (Except IoFailure Unit)
  | ⟨_, none⟩ => [.ok ()]
  | ⟨_, some failed⟩ => failed.flushAnswers

/-- The requests of an attempt. All its bytes were accepted and one flush followed, which
succeeded or failed; or a write ended it with a part of the bytes missing, and no flush
followed. -/
inductive ToldBy : List Request -> PutAttempt -> Prop where
  | succeeded {writes : List Request} {encoded : List UInt8}
      (goOn : ∀ request ∈ writes, request.GoesOn)
      (accepted : writes.flatMap Request.accepted = encoded) :
      ToldBy (writes ++ [.flush (.ok ())]) ⟨encoded, none⟩
  | cut {writes : List Request} {encoded taken rest : List UInt8} {answer : Except IoFailure Nat}
      {failure : IoFailure} (goOn : ∀ request ∈ writes, request.GoesOn)
      (reports : Reports answer failure) (accepted : writes.flatMap Request.accepted = taken)
      (proper : taken ++ rest = encoded ∧ rest ≠ []) :
      ToldBy (writes ++ [.write rest answer]) ⟨encoded, some (.inWrite taken failure)⟩
  | unflushed {writes : List Request} {encoded : List UInt8} {failure : IoFailure}
      (goOn : ∀ request ∈ writes, request.GoesOn)
      (accepted : writes.flatMap Request.accepted = encoded) :
      ToldBy (writes ++ [.flush (.error failure)]) ⟨encoded, some (.inFlush failure)⟩

variable {requests : List Request} {attempt : PutAttempt} {attempts : List PutAttempt}

/-- The requests of an attempt accepted its bytes. -/
theorem ToldBy.flatMap_accepted (told : attempt.ToldBy requests) :
    requests.flatMap Request.accepted = attempt.accepted := by
  cases told with
  | succeeded _ accepted => simp [accepted, Request.accepted, PutAttempt.accepted]
  | cut _ reports accepted =>
      simp [accepted, reports.accepted_eq_nil, PutAttempt.accepted, FailedPut.accepted]
  | unflushed _ accepted =>
      simp [accepted, Request.accepted, PutAttempt.accepted, FailedPut.accepted]

/-- The flushes among the requests of an attempt were answered as it ended. -/
theorem ToldBy.filterMap_flushAnswer? (told : attempt.ToldBy requests) :
    requests.filterMap Request.flushAnswer? = attempt.flushAnswers := by
  cases told with
  | succeeded goOn | unflushed goOn | cut goOn =>
      rw [List.filterMap_append, filterMap_flushAnswer?_of_goesOn goOn]
      rfl

/-- A write that failed has taken a proper prefix. -/
theorem ToldBy.fits {failed : FailedPut} {encoded : List UInt8}
    (told : PutAttempt.ToldBy requests ⟨encoded, some failed⟩) : failed.Fits encoded := by
  cases told with
  | unflushed => trivial
  | cut _ _ _ proper =>
      obtain ⟨rfl, nonempty⟩ := proper
      refine ⟨List.prefix_append _ _, ?_⟩
      intro same
      exact nonempty (List.self_eq_append_right.mp same)

/-- The requests of some attempts, one after another. -/
inductive AllToldBy : List Request -> List PutAttempt -> Prop where
  | nil : AllToldBy [] []
  | concat {earlier later : List Request} {attempts : List PutAttempt} {attempt : PutAttempt}
      (before : AllToldBy earlier attempts) (told : attempt.ToldBy later) :
      AllToldBy (earlier ++ later) (attempts ++ [attempt])

/-- The requests of some attempts accepted their bytes. -/
theorem AllToldBy.flatMap_accepted (told : AllToldBy requests attempts) :
    requests.flatMap Request.accepted = attempts.flatMap PutAttempt.accepted := by
  induction told with
  | nil => rfl
  | concat _ told inductionHypothesis =>
      rw [List.flatMap_append, List.flatMap_append, inductionHypothesis, told.flatMap_accepted,
        List.flatMap_singleton]

/-- The flushes among the requests of some attempts were answered as these ended. -/
theorem AllToldBy.filterMap_flushAnswer? (told : AllToldBy requests attempts) :
    requests.filterMap Request.flushAnswer? = attempts.flatMap PutAttempt.flushAnswers := by
  induction told with
  | nil => rfl
  | concat _ told inductionHypothesis =>
      rw [List.filterMap_append, List.flatMap_append, inductionHypothesis,
        told.filterMap_flushAnswer?, List.flatMap_singleton]

end PutAttempt

end Brainfuck
