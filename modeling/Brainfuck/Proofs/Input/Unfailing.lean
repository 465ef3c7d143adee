import Brainfuck.Machine.Source

/-!
# Sources that never fail

A source is `Unfailing` if none of the reads that can be made of it fails, however
many are made. The state that a read leaves is unfailing again, which is all that
a run needs to know.
-/

namespace Brainfuck

namespace Source

variable {σ : Type} [Source σ]

/-- However many cells are read in a row, every read gives one. -/
def Unfailing (source : σ) : Prop :=
  ∀ count, ∀ answer ∈ (readCells count source).1, ∃ value, answer = .ok value

/-- The next read of an unfailing source gives a cell. -/
theorem Unfailing.read_eq_ok {source : σ} (unfailing : Unfailing source) :
    ∃ value, (Source.read source).1 = .ok value :=
  unfailing 1 _ (by simp [readCells])

/-- What is left after a read of an unfailing source is unfailing. -/
theorem Unfailing.rest {source : σ} (unfailing : Unfailing source) :
    Unfailing (Source.read source).2 := by
  intro count answer isAnswer
  exact unfailing (count + 1) answer (by simp [readCells, isAnswer])

/-- A source is unfailing if no source of its kind ever fails. -/
theorem unfailing_of_forall (gives : ∀ source : σ, ∃ value, (Source.read source).1 = .ok value)
    (source : σ) : Unfailing source := by
  intro count
  induction count generalizing source with
  | zero => simp [readCells]
  | succ count inductionHypothesis =>
      intro answer isAnswer
      simp only [readCells, List.mem_cons] at isAnswer
      rcases isAnswer with rfl | isLater
      · exact gives source
      · exact inductionHypothesis (Source.read source).2 answer isLater

end Source

/-- Given bytes never fail to be read. -/
theorem Bytes.unfailing (bytes : Bytes) : Source.Unfailing bytes := by
  apply Source.unfailing_of_forall
  rintro ⟨_ | ⟨byte, rest⟩⟩
  · exact ⟨endOfInput, by simp [Source.read, readCell, ByteReader.readByte, cellOfByte]⟩
  · exact ⟨cellOfByte (some byte), by simp [Source.read, readCell, ByteReader.readByte]⟩

end Brainfuck
