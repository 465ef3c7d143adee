import Brainfuck.Machine.Source

/-!
# Scripts of a source and their failures

A script tells a source what to answer. Each read of a script of whole cells
uses up one answer; a read of a script of bytes uses up the interruptions before
an answer as well. `ByteScript.cells` is the script of whole cells that is left
when the interruptions are taken out, and reading it is the same:
`ByteScript.read_cells`. What is said of failures is said once for scripts of
cells, `CellScript.read_mended`, and holds of every source that has a view as one.
-/

namespace Brainfuck

/-- The failures among some answers, in order. -/
def failuresIn {α : Type} (answers : List (Except IoFailure α)) : List IoFailure :=
  answers.filterMap fun
    | .ok _ => none
    | .error failure => some failure

/-- The answers that are left when failures of some kind are dropped. -/
def withoutFailures {α : Type} (dropped : IoFailure -> Bool)
    (answers : List (Except IoFailure α)) : List (Except IoFailure α) :=
  answers.filter fun
    | .ok _ => true
    | .error failure => !dropped failure

@[simp] theorem failuresIn_ok {α : Type} (value : α) (rest : List (Except IoFailure α)) :
    failuresIn (.ok value :: rest) = failuresIn rest := rfl

@[simp] theorem failuresIn_error {α : Type} (failure : IoFailure)
    (rest : List (Except IoFailure α)) :
    failuresIn (.error failure :: rest) = failure :: failuresIn rest := rfl

@[simp] theorem failuresIn_append {α : Type} (left right : List (Except IoFailure α)) :
    failuresIn (left ++ right) = failuresIn left ++ failuresIn right := by
  simp [failuresIn]

@[simp] theorem withoutFailures_ok {α : Type} (dropped : IoFailure -> Bool) (value : α)
    (rest : List (Except IoFailure α)) :
    withoutFailures dropped (.ok value :: rest) = .ok value :: withoutFailures dropped rest := rfl

theorem withoutFailures_dropped {α : Type} {dropped : IoFailure -> Bool} {failure : IoFailure}
    (isDropped : dropped failure = true) (rest : List (Except IoFailure α)) :
    withoutFailures dropped (.error failure :: rest) = withoutFailures dropped rest := by
  simp [withoutFailures, isDropped]

theorem withoutFailures_kept {α : Type} {dropped : IoFailure -> Bool} {failure : IoFailure}
    (isKept : dropped failure = false) (rest : List (Except IoFailure α)) :
    withoutFailures dropped (.error failure :: rest) =
      .error failure :: withoutFailures dropped rest := by
  simp [withoutFailures, isKept]

namespace CellScript

/-- The script without its failures. -/
def mended (script : CellScript) : CellScript where
  answers := withoutFailures (fun _ => true) script.answers

/-- The failures that a script still has in store. -/
def failures (script : CellScript) : List IoFailure :=
  failuresIn script.answers

/-- A read either gives what the mended script gives, or it fails with the first
failure in store, and the mended script stays the same. -/
theorem read_mended (script : CellScript) :
    (∃ value rest, Source.read script = (.ok value, rest) ∧
        Source.read script.mended = (.ok value, rest.mended) ∧
        script.failures = rest.failures) ∨
      ∃ failure rest, Source.read script = (.error failure, rest) ∧
        rest.mended = script.mended ∧ script.failures = failure :: rest.failures ∧
        rest.answers.length < script.answers.length := by
  rcases script with ⟨_ | ⟨value | value, rest⟩⟩
  · exact .inl ⟨endOfInput, ⟨[]⟩, rfl, rfl, rfl⟩
  · refine .inr ⟨value, ⟨rest⟩, rfl, ?_, failuresIn_error value rest, by simp⟩
    rw [mended, mended, withoutFailures_dropped rfl]
  · exact .inl ⟨value, ⟨rest⟩, rfl, rfl, failuresIn_ok value rest⟩

/-- Reading takes an answer from the front of a script. -/
theorem exists_consumed_read (script : CellScript) :
    ∃ consumed, script.answers = consumed ++ (Source.read script).2.answers := by
  rcases script with ⟨_ | ⟨answer, rest⟩⟩
  · exact ⟨[], rfl⟩
  · exact ⟨[answer], rfl⟩

end CellScript

namespace ByteScript

/-- The whole cells that a script of bytes yields, and its failures other than
interruptions. -/
def cells (script : ByteScript) : CellScript where
  answers := script.answers.filterMap fun
    | .ok byte? => some (.ok (cellOfByte byte?))
    | .error failure => if failure.isInterruption then none else some (.error failure)

theorem cells_ok (byte? : Option UInt8) (rest : List (Except IoFailure (Option UInt8))) :
    cells ⟨.ok byte? :: rest⟩ = ⟨.ok (cellOfByte byte?) :: (cells ⟨rest⟩).answers⟩ := rfl

theorem cells_interruption {failure : IoFailure} (interrupted : failure.isInterruption = true)
    (rest : List (Except IoFailure (Option UInt8))) :
    cells ⟨.error failure :: rest⟩ = cells ⟨rest⟩ := by
  simp [cells, interrupted]

theorem cells_failure {failure : IoFailure} (lasting : failure.isInterruption = false)
    (rest : List (Except IoFailure (Option UInt8))) :
    cells ⟨.error failure :: rest⟩ = ⟨.error failure :: (cells ⟨rest⟩).answers⟩ := by
  simp [cells, lasting]

theorem read_nil : Source.read (⟨[]⟩ : ByteScript) = (.ok endOfInput, ⟨[]⟩) := by
  simp [Source.read, readCell, ByteReader.readByte, cellOfByte]

theorem read_ok (byte? : Option UInt8) (rest : List (Except IoFailure (Option UInt8))) :
    Source.read (⟨.ok byte? :: rest⟩ : ByteScript) = (.ok (cellOfByte byte?), ⟨rest⟩) := by
  simp [Source.read, readCell, ByteReader.readByte]

theorem read_interruption {failure : IoFailure} (interrupted : failure.isInterruption = true)
    (rest : List (Except IoFailure (Option UInt8))) :
    Source.read (⟨.error failure :: rest⟩ : ByteScript) = Source.read (⟨rest⟩ : ByteScript) := by
  simp only [Source.read]
  rw [readCell]
  simp [ByteReader.readByte, interrupted]

theorem read_failure {failure : IoFailure} (lasting : failure.isInterruption = false)
    (rest : List (Except IoFailure (Option UInt8))) :
    Source.read (⟨.error failure :: rest⟩ : ByteScript) = (.error failure, ⟨rest⟩) := by
  simp [Source.read, readCell, ByteReader.readByte, lasting]

/-- Induction on a script of bytes: it is used up, or its first answer is a byte or
the end of input, an interruption, or another failure. -/
@[elab_as_elim]
theorem answers_induction {motive : ByteScript -> Prop} (script : ByteScript)
    (nil : motive ⟨[]⟩)
    (ok : ∀ byte? rest, motive ⟨rest⟩ -> motive ⟨.ok byte? :: rest⟩)
    (interruption : ∀ failure rest, failure.isInterruption = true -> motive ⟨rest⟩ ->
      motive ⟨.error failure :: rest⟩)
    (failure : ∀ failure rest, failure.isInterruption = false -> motive ⟨rest⟩ ->
      motive ⟨.error failure :: rest⟩) : motive script := by
  obtain ⟨answers⟩ := script
  induction answers with
  | nil => exact nil
  | cons answer rest inductionHypothesis =>
      cases answer with
      | ok byte? => exact ok byte? rest inductionHypothesis
      | error found =>
          cases interrupted : found.isInterruption with
          | true => exact interruption found rest interrupted inductionHypothesis
          | false => exact failure found rest interrupted inductionHypothesis

/-- Reading a script of bytes is reading the whole cells that it yields. -/
theorem read_cells (script : ByteScript) :
    Source.read script.cells = ((Source.read script).1, (Source.read script).2.cells) := by
  induction script using answers_induction with
  | nil => rw [read_nil]; rfl
  | ok byte? rest => rw [read_ok, cells_ok]; rfl
  | interruption failure rest interrupted inductionHypothesis =>
      rw [cells_interruption interrupted, read_interruption interrupted]
      exact inductionHypothesis
  | failure failure rest lasting => rw [cells_failure lasting, read_failure lasting]; rfl

/-- Reading takes answers from the front of a script. -/
theorem exists_consumed_read (script : ByteScript) :
    ∃ consumed, script.answers = consumed ++ (Source.read script).2.answers := by
  induction script using answers_induction with
  | nil => exact ⟨[], by rw [read_nil]; rfl⟩
  | ok byte? rest => exact ⟨[.ok byte?], by rw [read_ok]; rfl⟩
  | interruption failure rest interrupted inductionHypothesis =>
      obtain ⟨consumed, split⟩ := inductionHypothesis
      refine ⟨.error failure :: consumed, ?_⟩
      rw [read_interruption interrupted, List.cons_append, ← split]
  | failure failure rest lasting => exact ⟨[.error failure], by rw [read_failure lasting]; rfl⟩

/-- The failures of the whole cells are those other than interruptions. -/
theorem failures_cells (script : ByteScript) :
    script.cells.failures =
      (failuresIn script.answers).filter fun failure => !failure.isInterruption := by
  induction script using answers_induction with
  | nil => rfl
  | ok byte? rest inductionHypothesis => exact inductionHypothesis
  | interruption failure rest interrupted inductionHypothesis =>
      rw [cells_interruption interrupted, inductionHypothesis]
      simp [interrupted]
  | failure failure rest lasting inductionHypothesis =>
      rw [cells_failure lasting, failuresIn_error, List.filter_cons_of_pos (by simp [lasting]),
        ← inductionHypothesis]
      rfl

/-- Dropping at least the failures other than interruptions mends the whole cells. -/
theorem cells_withoutFailures {dropped : IoFailure -> Bool}
    (droppedIfLasting : ∀ failure, failure.isInterruption = false -> dropped failure = true)
    (script : ByteScript) :
    cells ⟨withoutFailures dropped script.answers⟩ = script.cells.mended := by
  induction script using answers_induction with
  | nil => rfl
  | ok byte? rest inductionHypothesis =>
      rw [withoutFailures_ok, cells_ok, inductionHypothesis]
      rfl
  | interruption failure rest interrupted inductionHypothesis =>
      rw [cells_interruption interrupted, ← inductionHypothesis]
      cases isDropped : dropped failure with
      | true => rw [withoutFailures_dropped isDropped]
      | false => rw [withoutFailures_kept isDropped, cells_interruption interrupted]
  | failure failure rest lasting inductionHypothesis =>
      rw [withoutFailures_dropped (droppedIfLasting failure lasting), inductionHypothesis,
        cells_failure lasting, CellScript.mended, CellScript.mended, withoutFailures_dropped rfl]

end ByteScript

end Brainfuck
