import Brainfuck.Machine.Interpreter
import Brainfuck.Proofs.Code.Tree
import Brainfuck.Proofs.Input.Scripts
import Brainfuck.Proofs.Semantics.Perseverance

/-!
# Retrying hides the failures of a source

A read that fails leaves the tape, the place and the sink as they are, so that the
next run tries it again. Hence running again after each failure of a script comes
to the same as one run over the script without its failures:
`retrying_hides_failures`. The failing reads are the silent steps of a
simulation; each of them uses up an answer of the script.
-/

namespace Brainfuck

/-- A source that can be looked at as a script of whole cells. -/
structure Source.View (σ : Type) [Source σ] where
  cells : σ -> CellScript
  read_cells : ∀ source,
    Source.read (cells source) = ((Source.read source).1, cells (Source.read source).2)

/-- A script of whole cells as it is. -/
def CellScript.view : Source.View CellScript where
  cells script := script
  read_cells _ := rfl

/-- A script of bytes as the whole cells that it yields. -/
def ByteScript.view : Source.View ByteScript where
  cells := cells
  read_cells := read_cells

/-- Two kinds of sources seen as scripts, for a source that has `all` failures in
store at first; `Kept` is what reading it never changes. -/
structure Source.Mending (σ ρ : Type) [Source σ] [Source ρ] where
  failing : Source.View σ
  mended : Source.View ρ
  all : List IoFailure
  Kept : σ -> Prop
  kept_read : ∀ {source}, Kept source -> Kept (Source.read source).2

namespace Source.Mending

variable {σ ρ : Type} [Source σ] [Source ρ] (mending : Source.Mending σ ρ)

/-- One source has met these failures, and the other one gives what it has left
besides failures. -/
structure Mends (met : List IoFailure) (left : σ) (right : ρ) : Prop where
  mended : mending.mended.cells right = (mending.failing.cells left).mended
  failures : mending.all = met ++ (mending.failing.cells left).failures
  kept : mending.Kept left

variable {mending}

/-- A read is answered alike, or it fails and there is one failure less in store. -/
theorem Mends.read {met : List IoFailure} {left : σ} {right : ρ}
    (mends : mending.Mends met left right) :
    (∃ value, (Source.read left).1 = .ok value ∧
        AnswersAlike (mending.Mends met) (Source.read left) (Source.read right)) ∨
      ∃ failure rest, Source.read left = (.error failure, rest) ∧
        (mending.failing.cells rest).answers.length <
          (mending.failing.cells left).answers.length ∧
        mending.Mends (met ++ [failure]) rest right := by
  obtain ⟨mended, failures, kept⟩ := mends
  have keptRest := mending.kept_read kept
  have readLeft := mending.failing.read_cells left
  have readRight := mending.mended.read_cells right
  rcases (mending.failing.cells left).read_mended with
    ⟨value, rest, read, readMended, same⟩ | ⟨failure, rest, read, same, first, shorter⟩
  · rw [read, Prod.mk.injEq] at readLeft
    rw [mended, readMended, Prod.mk.injEq] at readRight
    obtain ⟨gave, rfl⟩ := readLeft
    obtain ⟨gaveToo, mendedRest⟩ := readRight
    refine .inl ⟨value, gave.symm, gave.symm.trans gaveToo, ?_⟩
    exact ⟨mendedRest.symm, by rw [failures, same], keptRest⟩
  · rw [read, Prod.mk.injEq] at readLeft
    obtain ⟨failed, rfl⟩ := readLeft
    refine .inr ⟨failure, _, Prod.ext failed.symm rfl, shorter, ?_⟩
    exact ⟨by rw [mended, same], by simp [failures, first], keptRest⟩

variable (mending)

/-- A machine that is stepped on after failures, and one whose source has none. -/
def Related (persistence : Stepper.Persistence (Machine σ Buffer)) (image : Machine ρ Buffer) :
    Prop :=
  Machine.Matches (mending.Mends persistence.met) Eq persistence.current image

/-- The answers that the source has left. -/
def remaining (persistence : Stepper.Persistence (Machine σ Buffer)) : Nat :=
  (mending.failing.cells persistence.current.state.source).answers.length

variable {mending} {program : Program} {machine : Machine σ Buffer} {image : Machine ρ Buffer}
  {met : List IoFailure}

/-- A step whose read succeeds, or that does not read, is taken by both. -/
theorem Related.stepTogether (related : mending.Related ⟨machine, met⟩ image)
    (unfinished : machine.finished program = false)
    (reads : machine.command? program = some .input ->
      ∃ value, (Source.read machine.state.source).1 = .ok value ∧
        AnswersAlike (mending.Mends met) (Source.read machine.state.source)
          (Source.read image.state.source)) :
    Stepper.StepTogether (Machine.stepper program).persistent (Machine.stepper program)
      (fun _ => true) mending.Related ⟨machine, met⟩ image := by
  obtain ⟨now, tape, source, sink⟩ := related
  have succeeds : (machine.step program).failure? = none := by
    apply Machine.failure?_step_eq_none
    · intro asks
      obtain ⟨value, gave, -⟩ := reads asks
      exact ⟨value, gave⟩
    · intro _
      rfl
  have answers : State.Answers (mending.Mends met) Eq machine.state image.state
      (machine.command? program) := by
    refine ⟨tape, fun _ => source, ?_, fun _ => sink, fun _ => ?_⟩
    · intro asks
      obtain ⟨_, -, alike⟩ := reads asks
      exact alike
    · rw [sink]
      exact ⟨rfl, rfl⟩
  exact Machine.stepTogether_of_answers now unfinished succeeds answers id

/-- A step whose read fails is silent. -/
theorem Related.stepSilently (related : mending.Related ⟨machine, met⟩ image)
    (asks : machine.command? program = some .input) {failure : IoFailure} {rest : σ}
    (read : Source.read machine.state.source = (.error failure, rest))
    (shorter : (mending.failing.cells rest).answers.length <
      (mending.failing.cells machine.state.source).answers.length)
    (mends : mending.Mends (met ++ [failure]) rest image.state.source) :
    Stepper.StepSilently (Machine.stepper program).persistent mending.Related mending.remaining
      ⟨machine, met⟩ image := by
  obtain ⟨sameNow, sameTape, -, sameSink⟩ := related
  exact Machine.stepSilently_of_failed asks (State.perform_input_of_error read) shorter
    ⟨sameNow, sameTape, mends, sameSink⟩

variable (mending)

/-- Stepping on after the failures of a source is simulated by a machine whose
source has none. -/
def simulation (program : Program) :
    Stepper.Simulation (Machine.stepper program : Stepper (Machine σ Buffer)).persistent
      (Machine.stepper program : Stepper (Machine ρ Buffer)) (fun _ => true) where
  Related := mending.Related
  remaining := mending.remaining
  finishes := by
    rintro ⟨machine, met⟩ image related finished
    exact (Machine.finished_eq related.now).symm.trans finished
  proceeds := by
    rintro ⟨machine, met⟩ image related unfinished
    by_cases asks : machine.command? program = some .input
    · rcases related.state.source.read with
        ⟨value, gave, alike⟩ | ⟨failure, rest, read, shorter, mends⟩
      · exact .inl (related.stepTogether unfinished fun _ => ⟨value, gave, alike⟩)
      · exact .inr (related.stepSilently asks read shorter mends)
    · exact .inl (related.stepTogether unfinished fun asksToo => absurd asksToo asks)

end Source.Mending

/-- Both machines are left with the same tape, at the same place and with the same
text, and the failures are those of the answers that were used up. -/
structure Recovers {σ ρ : Type} (Met : List IoFailure -> σ -> Prop) (failures : List IoFailure)
    (final : Machine σ Buffer) (last : Machine ρ Buffer) : Prop where
  tape : final.state.tape = last.state.tape
  now : final.now = last.now
  text : final.state.sink = last.state.sink
  met : Met failures final.state.source

/-- The failures of a script of whole cells among the answers before those left. -/
def CellScript.Met (script : CellScript) (failures : List IoFailure) (rest : CellScript) : Prop :=
  ∃ consumed, script.answers = consumed ++ rest.answers ∧ failures = failuresIn consumed

/-- The failures of a script of bytes, other than interruptions, among the answers
before those left. -/
def ByteScript.Met (script : ByteScript) (failures : List IoFailure) (rest : ByteScript) : Prop :=
  ∃ consumed, script.answers = consumed ++ rest.answers ∧
    failures = (failuresIn consumed).filter fun failure => !failure.isInterruption

variable {σ ρ : Type} [Source σ] [Source ρ]

/-- Running again and again over a source that is mended comes to the same as one
run over the source that mends it. -/
theorem Source.Mending.retriesAs (mending : Source.Mending σ ρ) (program : Program) (tape : Tape)
    {source : σ} {smooth : ρ} (sink : Buffer) (mends : mending.Mends [] source smooth)
    {Met : List IoFailure -> σ -> Prop}
    (metBy : ∀ {failures rest}, mending.Kept rest ->
      mending.all = failures ++ (mending.failing.cells rest).failures -> Met failures rest) :
    Interpreter.RetriesAs ⟨program, Machine.start tape source sink⟩
      ⟨program, Machine.start tape smooth sink⟩ (Recovers Met) := by
  have related : mending.Related ⟨Machine.start tape source sink, []⟩
      (Machine.start tape smooth sink) := ⟨rfl, rfl, mends, rfl⟩
  apply Interpreter.retriesAs_of_simulation (mending.simulation program) related
  rintro failures final last ⟨now, sameTape, ⟨-, failing, kept⟩, text⟩ -
  exact ⟨sameTape, now, text, metBy kept failing⟩

/-- A script is mended by one of the same kind; reading takes answers from its
front only. -/
def Source.View.mending {α : Type} (view : Source.View σ) (answers : σ -> List α)
    (exists_consumed : ∀ source, ∃ consumed,
      answers source = consumed ++ answers (Source.read source).2)
    (script : σ) : Source.Mending σ σ where
  failing := view
  mended := view
  all := (view.cells script).failures
  Kept rest := ∃ consumed, answers script = consumed ++ answers rest
  kept_read := by
    rintro rest ⟨consumed, split⟩
    obtain ⟨more, splitRest⟩ := exists_consumed rest
    exact ⟨consumed ++ more, by rw [split, splitRest, List.append_assoc]⟩

/-- Running again over a script of whole cells comes to the same as one run over
the script without its failures. -/
theorem CellScript.retriesAs (script : CellScript) (program : Program) (tape : Tape)
    (sink : Buffer) :
    Interpreter.RetriesAs ⟨program, Machine.start tape script sink⟩
      ⟨program, Machine.start tape script.mended sink⟩ (Recovers script.Met) := by
  let mending := view.mending answers exists_consumed_read script
  have mends : mending.Mends [] script script.mended := ⟨rfl, rfl, [], rfl⟩
  apply mending.retriesAs program tape sink mends
  rintro met rest ⟨consumed, split⟩ inStore
  refine ⟨consumed, split, ?_⟩
  have all : script.failures = failuresIn consumed ++ rest.failures := by
    rw [failures, failures, ← failuresIn_append, ← split]
  exact List.append_cancel_right (inStore.symm.trans all)

/-- Running again over a script of bytes comes to the same as one run over a script
that yields the same cells without failures. -/
theorem ByteScript.retriesAs {script smooth : ByteScript}
    (mended : smooth.cells = script.cells.mended) (program : Program) (tape : Tape)
    (sink : Buffer) :
    Interpreter.RetriesAs ⟨program, Machine.start tape script sink⟩
      ⟨program, Machine.start tape smooth sink⟩ (Recovers script.Met) := by
  let mending := view.mending answers exists_consumed_read script
  have mends : mending.Mends [] script smooth := ⟨mended, rfl, [], rfl⟩
  apply mending.retriesAs program tape sink mends
  rintro met rest ⟨consumed, split⟩ inStore
  refine ⟨consumed, split, ?_⟩
  have all : script.cells.failures =
      (failuresIn consumed).filter (fun failure => !failure.isInterruption) ++
        rest.cells.failures := by
    rw [failures_cells, failures_cells, ← List.filter_append, ← failuresIn_append, ← split]
  exact List.append_cancel_right (inStore.symm.trans all)

/-- For every balanced code and every tape, running again after each failure of a
source comes to the same as one run over the script without its failures: it
leaves the same tape, place and text after exactly the failures that were met, in
order, and it never succeeds if that one run goes on for ever. For scripts of
bytes this is said of the failures other than interruptions, whether or not
interruptions are dropped from the script along with them. -/
theorem retrying_hides_failures {code : List Char} (balanced : Balanced code) (tape : Tape) :
    (∀ script : CellScript, ∃ retried smooth,
      Interpreter.build code tape script Buffer.empty = .ok retried ∧
        Interpreter.build code tape (CellScript.mk (withoutFailures (fun _ => true) script.answers))
          Buffer.empty = .ok smooth ∧
        retried.RetriesAs smooth (Recovers script.Met)) ∧
      ∀ (script : ByteScript) (dropped : IoFailure -> Bool),
        (∀ failure, failure.isInterruption = false -> dropped failure = true) ->
        ∃ retried smooth,
          Interpreter.build code tape script Buffer.empty = .ok retried ∧
            Interpreter.build code tape (ByteScript.mk (withoutFailures dropped script.answers))
              Buffer.empty = .ok smooth ∧
            retried.RetriesAs smooth (Recovers script.Met) := by
  obtain ⟨block, rfl⟩ := balanced.exists_block
  have built {σ : Type} [Source σ] (source : σ) :=
    Interpreter.build_of_parse block.parse_code tape source Buffer.empty
  constructor
  · intro script
    exact ⟨_, _, built script, built script.mended, script.retriesAs _ tape _⟩
  · intro script dropped droppedIfLasting
    have mended := ByteScript.cells_withoutFailures droppedIfLasting script
    exact ⟨_, _, built script, built _, ByteScript.retriesAs mended _ tape _⟩

/-- A loop that copies, over scripts that fail before each of their answers. -/
theorem retrying_hides_failures_copying :
    Balanced [',', '[', '.', ',', ']'] ∧
      (∃ retried smooth,
        Interpreter.build [',', '[', '.', ',', ']'] .standard
            (CellScript.mk [.error .writeZero, .ok 65, .error .writeZero, .error .writeZero, .ok 0])
            Buffer.empty = .ok retried ∧
          Interpreter.build [',', '[', '.', ',', ']'] .standard (CellScript.mk [.ok 65, .ok 0])
            Buffer.empty = .ok smooth ∧
          retried.RetriesAs smooth (Recovers (CellScript.Met
            ⟨[.error .writeZero, .ok 65, .error .writeZero, .error .writeZero, .ok 0]⟩))) ∧
      ∃ retried smooth,
        Interpreter.build [',', '[', '.', ',', ']'] .standard
            (ByteScript.mk
              [.ok (some 65), .error .writeZero, .error ⟨.interrupted, ""⟩, .ok (some 0)])
            Buffer.empty = .ok retried ∧
          Interpreter.build [',', '[', '.', ',', ']'] .standard
            (ByteScript.mk [.ok (some 65), .error ⟨.interrupted, ""⟩, .ok (some 0)])
            Buffer.empty = .ok smooth ∧
          retried.RetriesAs smooth (Recovers (ByteScript.Met
            ⟨[.ok (some 65), .error .writeZero, .error ⟨.interrupted, ""⟩, .ok (some 0)]⟩)) :=
  ⟨by decide, (retrying_hides_failures (by decide) .standard).1 _,
    (retrying_hides_failures (by decide) .standard).2 _ (fun failure => !failure.isInterruption)
      fun _ lasting => by rw [lasting]; rfl⟩

end Brainfuck
