import Brainfuck.Proofs.Output.Streaming

/-!
# Sinks that never fail

A sink is `Unfailing` if it takes all characters that are put into it, however many there
are. A buffer is such a sink, and so is a stream that has taken what a buffer has while
its writer obliges. What a machine does before one of them it does before all:
`Machine.lockStep_of_unfailing`.
-/

namespace Brainfuck

namespace Sink

variable {τ : Type} [Sink τ] {sink : τ}

/-- However many characters are put in a row, all of them are taken. -/
def Unfailing (sink : τ) : Prop :=
  ∀ characters, ∀ answer ∈ putAll characters sink, answer.1 = .ok ()

/-- The next character that is put into an unfailing sink is taken. -/
theorem Unfailing.put_eq_ok (unfailing : Unfailing sink) (character : Char) :
    (Sink.put character sink).1 = .ok () :=
  unfailing [character] _ (by simp [putAll])

/-- An unfailing sink is unfailing when a character has been put into it. -/
theorem Unfailing.rest (unfailing : Unfailing sink) (character : Char) :
    Unfailing (Sink.put character sink).2 := by
  intro characters answer isAnswer
  exact unfailing (character :: characters) answer (by simp [putAll, isAnswer])

/-- A sink is unfailing if it satisfies something under which a character is taken and
which that keeps true. -/
theorem Unfailing.of_invariant (Invariant : τ -> Prop) (initially : Invariant sink)
    (takes : ∀ {reached : τ}, Invariant reached -> ∀ character,
      (Sink.put character reached).1 = .ok () ∧ Invariant (Sink.put character reached).2) :
    Unfailing sink := by
  intro characters
  induction characters generalizing sink with
  | nil => simp [putAll]
  | cons character rest inductionHypothesis =>
      obtain ⟨taken, after⟩ := takes initially character
      intro answer isAnswer
      simp only [putAll, List.mem_cons] at isAnswer
      rcases isAnswer with rfl | isLater
      · exact taken
      · exact inductionHypothesis after answer isLater

end Sink

/-- A buffer takes every character. -/
theorem Buffer.unfailing (buffer : Buffer) : Sink.Unfailing buffer :=
  .of_invariant (fun _ => True) trivial fun _ _ => ⟨rfl, trivial⟩

/-- A stream over an obliging writer takes every character. -/
theorem Stream.unfailing_of_obliging {ω : Type} [Writer ω] {writer : ω}
    (obliging : Writer.Obliging writer) (codec : Codec) :
    Sink.Unfailing (Stream.fresh writer codec) := by
  let takesAlong (stream : Stream ω) : Prop := ∃ buffer, stream.Encodes codec buffer
  apply Sink.Unfailing.of_invariant takesAlong
  · exact ⟨.empty, rfl, rfl, rfl, obliging⟩
  · rintro stream ⟨buffer, encodes⟩ character
    obtain ⟨taken, after⟩ := encodes.put character
    exact ⟨taken, _, after⟩

/-- Whatever an unfailing sink is, machines before it and before any other one of the kind
go in lock step. -/
theorem Machine.lockStep_of_unfailing {σ τ υ : Type} [Source σ] [Sink τ] [Sink υ]
    (program : Program) :
    Stepper.LockStep (stepper program) (stepper program)
      (Matches (σ := σ) Eq fun (left : τ) (right : υ) =>
        Sink.Unfailing left ∧ Sink.Unfailing right) := by
  apply lockStep_of_answers
  · rintro source _ rfl
    exact ⟨rfl, rfl⟩
  · rintro left right character ⟨unfailing, unfailingToo⟩
    refine ⟨?_, unfailing.rest character, unfailingToo.rest character⟩
    rw [unfailing.put_eq_ok, unfailingToo.put_eq_ok]

end Brainfuck
