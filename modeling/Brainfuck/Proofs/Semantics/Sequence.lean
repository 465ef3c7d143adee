import Brainfuck.Proofs.Semantics.Moments
import Brainfuck.Proofs.Semantics.Prolongation
import Brainfuck.Proofs.Semantics.Simulation

/-!
# Running codes in a row

The program of two codes in a row prolongs that of the first code, since no jump leads
out of its first half. What it does behind that half is what the program of the second
code does at its own places: `Machine.behindSimulation`. So the whole runs as the first
code does and then, from the state in which that one ends, as the second one does:
`append_runsInSequence`.
-/

namespace Brainfuck

variable {σ τ : Type} [Source σ] [Sink τ]

namespace Machine

/-- The same machine so many places further on. -/
def ahead {σ τ : Type} (offset : Nat) (machine : Machine σ τ) : Machine σ τ where
  state := machine.state
  now := offset + machine.now

variable {first second : Program}

/-- The program of two codes in a row prolongs that of the first one. -/
theorem prolongs_andThen (second : Program) (closed : first.Closed) :
    Stepper.Prolongs (stepper (first.andThen second) : Stepper (Machine σ τ)) (stepper first)
      fun machine => machine.now ≤ first.size where
  unfinished := by
    intro machine _ unfinished
    have inside : machine.now < first.size := Nat.lt_of_not_le (of_decide_eq_false unfinished)
    apply decide_eq_false
    rw [Program.size_andThen]
    omega
  weight _ := rfl
  step := by
    intro machine _ unfinished
    have inside : machine.now < first.size := Nat.lt_of_not_le (of_decide_eq_false unfinished)
    simp only [stepper, step, Program.get?_andThen_of_lt inside]
  keeps := now_step_le closed

/-- Behind the first half a machine takes the step that it takes in the second
program. -/
theorem step_ahead (first second : Program) (machine : Machine σ τ) :
    ((machine.ahead first.size).step (first.andThen second)).after =
        (machine.step second).after.ahead first.size ∧
      ((machine.ahead first.size).step (first.andThen second)).failure? =
        (machine.step second).failure? := by
  rcases machine with ⟨state, place⟩
  have shifted : (first.andThen second).get? (first.size + place) = _ :=
    Program.get?_andThen_add place
  have steps := stepsAs_step second ⟨state, place⟩
  generalize step second ⟨state, place⟩ = attempt at steps
  simp only [ahead]
  cases steps with
  | idle behind => simp [step, shifted, behind]
  | performed here performed =>
      rw [here] at shifted
      rw [step_of_performed shifted performed]
      exact ⟨rfl, rfl⟩
  | failed here performed =>
      rw [here] at shifted
      rw [step_of_failed shifted performed]
      exact ⟨rfl, rfl⟩
  | skipped here zero =>
      rw [here] at shifted
      rw [step_of_zero shifted zero]
      exact ⟨rfl, rfl⟩
  | entered here nonzero =>
      rw [here] at shifted
      rw [step_of_nonzero shifted nonzero]
      exact ⟨rfl, rfl⟩
  | turned here =>
      rw [here] at shifted
      rw [step_of_loopEnd shifted]
      exact ⟨rfl, rfl⟩

/-- Behind the first half a machine is finished as in the second program. -/
theorem finished_ahead {σ τ : Type} (machine : Machine σ τ) :
    (machine.ahead first.size).finished (first.andThen second) = machine.finished second := by
  rw [Bool.eq_iff_iff, finished_eq_true_iff, finished_eq_true_iff, ahead,
    Program.get?_andThen_add, Option.map_eq_none_iff]

/-- Where the first half is finished, the second program begins. -/
theorem eq_ahead_of_finished {σ τ : Type} {machine : Machine σ τ}
    (within : machine.now ≤ first.size) (finished : machine.finished first = true) :
    machine = ahead first.size ⟨machine.state, 0⟩ := by
  have behind : first.size ≤ machine.now := of_decide_eq_true finished
  exact Machine.ext rfl (Nat.le_antisymm within behind)

/-- The second program, and the whole one behind its first half, simulate each other.
Nothing is said of the log, in which the places are shifted too. -/
def behindSimulation (first second : Program) :
    Stepper.Simulation (stepper second : Stepper (Machine σ τ))
      (stepper (first.andThen second) : Stepper (Machine σ τ)) fun _ => false where
  Related machine image := machine.ahead first.size = image
  remaining _ := 0
  finishes := by
    rintro machine image rfl finished
    exact (finished_ahead machine).trans finished
  proceeds := by
    rintro machine image rfl unfinished
    obtain ⟨after, failure?⟩ := step_ahead first second machine
    refine .inl ⟨(finished_ahead machine).trans unfinished, rfl, failure?.symm, ?_, after.symm⟩
    rw [List.filter_eq_nil_iff.mpr (by simp), List.filter_eq_nil_iff.mpr (by simp)]

end Machine

namespace Interpreter

open Machine (stepper)

/-- An interpreter runs as a first one does, and from the state that this one leaves as
the next one does, whose places stand behind those of the first. -/
structure RunsInSequence (whole first : Interpreter σ τ) (next : State σ τ -> Interpreter σ τ) :
    Prop where
  /-- Both succeed, and their steps are added. -/
  succeeds : ∀ steps final, whole.Succeeds steps final ↔
    ∃ earlier middle later last, first.Succeeds earlier middle ∧
      (next middle.state).Succeeds later last ∧ steps = earlier + later ∧
      final = last.ahead first.program.size
  /-- The first one fails, or it succeeds and the next one fails. -/
  fails : ∀ failure final, whole.Fails failure final ↔
    first.Fails failure final ∨
      ∃ earlier middle last, first.Succeeds earlier middle ∧
        (next middle.state).Fails failure last ∧ final = last.ahead first.program.size
  /-- The first one goes on for ever, or it succeeds and the next one does. -/
  diverges : whole.Diverges ↔
    first.Diverges ∨ ∃ earlier middle, first.Succeeds earlier middle ∧
      (next middle.state).Diverges
  /-- Until the first one is finished, the machine is the same at every moment. -/
  before : ∀ count,
    (∀ fewer, fewer < count -> (first.after fewer).finished first.program = false) ->
      whole.after count = first.after count

variable {first second : Program} {machine : Machine σ τ}

/-- Stepping through both programs ends as stepping through the first one does in a
failure, or as stepping through the second one does from where the first is finished. -/
theorem ends_andThen_iff (closed : first.Closed) (within : machine.now ≤ first.size)
    {count : Nat} {failure? : Option IoFailure} {final : Machine σ τ} :
    (∃ events, (stepper (first.andThen second)).Ends machine count events failure? final) ↔
      (∃ failure events, failure? = some failure ∧
          (stepper first).Ends machine count events (some failure) final) ∨
        ∃ earlier before middle later behind last, count = earlier + later ∧
          (stepper first).Ends machine earlier before none middle ∧
          (stepper second).Ends ⟨middle.state, 0⟩ later behind failure? last ∧
          final = last.ahead first.size := by
  have prolongs : Stepper.Prolongs (stepper (first.andThen second) : Stepper (Machine σ τ)) _ _ :=
    Machine.prolongs_andThen second closed
  constructor
  · rintro ⟨events, ends⟩
    rcases prolongs.split ends within with ⟨failure, failed, ends⟩ |
      ⟨earlier, before, middle, later, behind, rfl, ends, withinMiddle, onward⟩
    · exact .inl ⟨failure, events, failed, ends⟩
    · rw [Machine.eq_ahead_of_finished withinMiddle ends.finished_of_none] at onward
      obtain ⟨logged, last, endsThere, -, same⟩ :=
        (Machine.behindSimulation first second).ends_left onward rfl
      exact .inr ⟨earlier, before, middle, later, logged, last, rfl, ends, endsThere, same.symm⟩
  · rintro (⟨failure, events, rfl, ends⟩ |
      ⟨earlier, before, middle, later, behind, last, rfl, ends, endsThere, rfl⟩)
    · exact ⟨events, prolongs.fails ends within⟩
    · obtain ⟨logged, final, onward, -, rfl⟩ :=
        (Machine.behindSimulation first second).ends_right endsThere rfl
      have withinMiddle := prolongs.within_of_ends ends within
      have path := prolongs.path ends within
      rw [Machine.eq_ahead_of_finished withinMiddle ends.finished_of_none] at path
      exact ⟨_, path.ends onward⟩

/-- An interpreter of two programs in a row runs as the first program does and then as
the second one does. -/
theorem runsInSequence_andThen (closed : first.Closed) (within : machine.now ≤ first.size) :
    RunsInSequence ⟨first.andThen second, machine⟩ ⟨first, machine⟩
      fun state => ⟨second, ⟨state, 0⟩⟩ where
  succeeds steps final := by
    rw [succeeds_iff, Stepper.succeeds_iff, ends_andThen_iff closed within]
    simp only [succeeds_iff, Stepper.succeeds_iff]
    constructor
    · rintro (⟨failure, -, failed, -⟩ |
        ⟨earlier, before, middle, later, behind, last, sum, ends, endsThere, same⟩)
      · simp at failed
      · exact ⟨earlier, middle, later, last, ⟨before, ends⟩, ⟨behind, endsThere⟩, sum, same⟩
    · rintro ⟨earlier, middle, later, last, ⟨before, ends⟩, ⟨behind, endsThere⟩, sum, same⟩
      exact .inr ⟨earlier, before, middle, later, behind, last, sum, ends, endsThere, same⟩
  fails failure final := by
    simp only [fails_iff, succeeds_iff, Stepper.fails_iff, Stepper.succeeds_iff,
      ends_andThen_iff closed within]
    constructor
    · rintro ⟨count, ⟨found, events, failed, ends⟩ |
        ⟨earlier, before, middle, later, behind, last, -, ends, endsThere, same⟩⟩
      · obtain rfl := Option.some.inj failed
        exact .inl ⟨count, events, ends⟩
      · exact .inr ⟨earlier, middle, last, ⟨before, ends⟩, ⟨later, behind, endsThere⟩, same⟩
    · rintro (⟨count, events, ends⟩ |
        ⟨earlier, middle, last, ⟨before, ends⟩, ⟨later, behind, endsThere⟩, same⟩)
      · exact ⟨count, .inl ⟨failure, events, rfl, ends⟩⟩
      · exact ⟨_, .inr ⟨earlier, before, middle, later, behind, last, rfl, ends, endsThere, same⟩⟩
  diverges := by
    simp only [diverges_iff, succeeds_iff, Stepper.diverges_iff, Stepper.succeeds_iff]
    constructor
    · intro endless
      by_cases firstEnds : ∃ count events failure? final,
          (stepper first).Ends machine count events failure? final
      · obtain ⟨count, events, _ | failure, middle, ends⟩ := firstEnds
        · refine .inr ⟨count, middle, ⟨events, ends⟩, ?_⟩
          intro later behind failure? last endsThere
          obtain ⟨logged, endsWhole⟩ := (ends_andThen_iff closed within).mpr
            (.inr ⟨count, events, middle, later, behind, last, rfl, ends, endsThere, rfl⟩)
          exact endless _ logged failure? _ endsWhole
        · obtain ⟨logged, endsWhole⟩ := (ends_andThen_iff closed within).mpr
            (.inl ⟨failure, events, rfl, ends⟩)
          exact absurd endsWhole (endless _ logged _ _)
      · exact .inl fun count events failure? final ends =>
          firstEnds ⟨count, events, failure?, final, ends⟩
    · rintro endless count events failure? final endsWhole
      rcases (ends_andThen_iff closed within).mp ⟨events, endsWhole⟩ with
        ⟨failure, logged, -, ends⟩ |
        ⟨earlier, before, middle, later, behind, last, -, ends, endsThere, -⟩
      · rcases endless with endlessFirst | ⟨earlier, middle, ⟨before, endsFirst⟩, -⟩
        · exact endlessFirst _ _ _ _ ends
        · exact absurd (ends.deterministic endsFirst).2.2.1 (by simp)
      · rcases endless with endlessFirst | ⟨earlier, other, ⟨logged, endsFirst⟩, endlessNext⟩
        · exact endlessFirst _ _ _ _ ends
        · obtain ⟨-, -, -, rfl⟩ := ends.deterministic endsFirst
          exact endlessNext _ _ _ _ endsThere
  before count unfinished :=
    (Machine.prolongs_andThen second closed).attempts count within unfinished

end Interpreter

/-- Two balanced codes in a row are balanced. They are compiled to the program of the
first, followed by that of the second with its jumps shifted, and on whatever tape and
between whatever source and sink they run as the first code and then, from the state in
which that one ends, as the second. -/
theorem append_runsInSequence {left right : List Char} (balancedLeft : Balanced left)
    (balancedRight : Balanced right) (tape : Tape) (source : σ) (sink : τ) :
    Balanced (left ++ right) ∧
      ∃ first second : Program,
        Program.parse left = .ok first ∧ Program.parse right = .ok second ∧
        Program.parse (left ++ right) = .ok
          ⟨first.instructions ++ second.instructions.map (Instruction.shift first.size)⟩ ∧
        ∃ (whole lead : Interpreter σ τ) (next : State σ τ -> Interpreter σ τ),
          Interpreter.build (left ++ right) tape source sink = .ok whole ∧
          Interpreter.build left tape source sink = .ok lead ∧
          (∀ state, Interpreter.build right state.tape state.source state.sink =
            .ok (next state)) ∧
          whole.RunsInSequence lead next := by
  obtain ⟨first, second, parsedLeft, parsedRight, parsed⟩ :=
    Program.parse_append_of_balanced balancedLeft balancedRight
  refine ⟨balancedLeft.append balancedRight, first, second, parsedLeft, parsedRight, parsed,
    ⟨first.andThen second, .start tape source sink⟩, ⟨first, .start tape source sink⟩,
    fun state => ⟨second, ⟨state, 0⟩⟩, ?_, ?_, ?_, ?_⟩
  · exact Interpreter.build_of_parse parsed tape source sink
  · exact Interpreter.build_of_parse parsedLeft tape source sink
  · intro state
    exact Interpreter.build_of_parse parsedRight state.tape state.source state.sink
  · exact Interpreter.runsInSequence_andThen (Program.closed_of_parse parsedLeft) (Nat.zero_le _)

/-- A code that reads and moves a cell, and one that prints what it finds there, before
a source that fails. -/
theorem append_runsInSequence_moving :
    Balanced [',', '[', '-', '>', '+', '<', ']'] ∧ Balanced ['>', '[', '.', '-', ']', ','] ∧
      Balanced ([',', '[', '-', '>', '+', '<', ']'] ++ ['>', '[', '.', '-', ']', ',']) ∧
      ∃ first second : Program,
        Program.parse [',', '[', '-', '>', '+', '<', ']'] = .ok first ∧
        Program.parse ['>', '[', '.', '-', ']', ','] = .ok second ∧
        Program.parse ([',', '[', '-', '>', '+', '<', ']'] ++ ['>', '[', '.', '-', ']', ',']) = .ok
          ⟨first.instructions ++ second.instructions.map (Instruction.shift first.size)⟩ ∧
        ∃ (whole lead : Interpreter CellScript Buffer)
          (next : State CellScript Buffer -> Interpreter CellScript Buffer),
          Interpreter.build ([',', '[', '-', '>', '+', '<', ']'] ++ ['>', '[', '.', '-', ']', ','])
            (.blank 2 (by decide)) ⟨[.ok 2, .error .writeZero]⟩ .empty = .ok whole ∧
          Interpreter.build [',', '[', '-', '>', '+', '<', ']'] (.blank 2 (by decide))
            ⟨[.ok 2, .error .writeZero]⟩ .empty = .ok lead ∧
          (∀ state, Interpreter.build ['>', '[', '.', '-', ']', ','] state.tape state.source
            state.sink = .ok (next state)) ∧
          whole.RunsInSequence lead next :=
  ⟨by decide, by decide, append_runsInSequence (by decide) (by decide) _ _ _⟩

end Brainfuck
