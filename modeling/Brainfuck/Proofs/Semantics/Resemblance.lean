import Brainfuck.Proofs.Semantics.LockStep

/-!
# Machines whose tapes resemble each other

Two machines between the same source and the same sink may differ in their tapes. As long
as these show the same value, and go on doing so when the same value is stored, only the
moves can tell them apart: `State.Resembles.perform_accords`. The programs may differ as
well, in having other commands in the same places, if these do to the one state what those
do to the other. `Interpreter.InAccord` says of two interpreters what becomes of this: how
they compare at every moment that is reached while some condition holds, and in the steps
and runs from there.
-/

namespace Brainfuck

/-- Related tapes show the same value, and stay related if the same value is stored. -/
structure Tape.Congruence (Tapes : Tape -> Tape -> Prop) : Prop where
  cell : ∀ {left right}, Tapes left right -> left.cell = right.cell
  store : ∀ {left right} value, Tapes left right -> Tapes (left.store value) (right.store value)

/-- States with the same source and the same sink whose tapes are related. -/
structure State.Resembles {σ τ : Type} (Tapes : Tape -> Tape -> Prop) (left right : State σ τ) :
    Prop where
  tape : Tapes left.tape right.tape
  source : left.source = right.source
  sink : left.sink = right.sink

/-- Whether a command is a move. -/
def Command.isMove : Command -> Bool
  | .moveRight | .moveLeft => true
  | _ => false

variable {σ τ : Type} [Source σ] [Sink τ] {Tapes : Tape -> Tape -> Prop}
  {shown : Event -> Bool}

/-- A command that is no move cannot tell the tapes apart. -/
theorem State.Resembles.perform_accords (congruence : Tape.Congruence Tapes)
    {left right : State σ τ} (resembles : State.Resembles Tapes left right) {command : Command}
    (still : command.isMove = false) :
    (left.perform command).Accords shown (State.Resembles Tapes) (right.perform command) := by
  rcases left with ⟨tape, source, sink⟩
  rcases right with ⟨image, _, _⟩
  obtain ⟨related, rfl, rfl⟩ := resembles
  have sameCell : tape.cell = image.cell := congruence.cell related
  cases command with
  | moveRight => cases still
  | moveLeft => cases still
  | increment =>
      simp only [State.perform, sameCell]
      exact ⟨rfl, rfl, congruence.store _ related, rfl, rfl⟩
  | decrement =>
      simp only [State.perform, sameCell]
      exact ⟨rfl, rfl, congruence.store _ related, rfl, rfl⟩
  | output =>
      simp only [State.perform, sameCell]
      rcases Sink.put image.cell.toChar sink with ⟨failure | _, written⟩
      · exact ⟨rfl, rfl, related, rfl, rfl⟩
      · exact ⟨rfl, rfl, related, rfl, rfl⟩
  | input =>
      simp only [State.perform]
      rcases Source.read source with ⟨failure | value, rest⟩
      · exact ⟨rfl, rfl, related, rfl, rfl⟩
      · exact ⟨rfl, rfl, congruence.store value related, rfl, rfl⟩

/-- Machines at the same place whose states resemble each other are in accord as long as
the commands that they come to are, the right one in a program with exchanged commands. -/
theorem Machine.accord_of_perform {program : Program} {exchange : Command -> Command}
    {holds : Machine σ τ -> Prop} (congruence : Tape.Congruence Tapes)
    (performs : ∀ {left right : Machine σ τ} {command},
      State.Resembles Tapes left.state right.state -> holds left ->
      program.get? left.now = some (.command command) ->
      (left.state.perform command).Accords shown (State.Resembles Tapes)
        (right.state.perform (exchange command))) :
    Stepper.Accord (stepper program) (stepper (program.exchanged exchange)) holds shown
      (Aligned (State.Resembles Tapes)) where
  finished aligned := by
    simp only [stepper, finished, aligned.now, Program.size_exchanged]
  weight _ := rfl
  accords aligned here := by
    apply step_accords aligned.now (congruence.cell aligned.state.tape)
    · exact fun _ => aligned.state
    · exact fun command stands => performs aligned.state here stands

/-- Two runs that end alike, log alike as far as it is shown, and leave related machines. -/
structure Run.Accords {σ τ ρ υ : Type} (shown : Event -> Bool)
    (Related : Machine σ τ -> Machine ρ υ -> Prop) (left : Run σ τ) (right : Run ρ υ) : Prop where
  ending : left.ending = right.ending
  log : left.log.filter shown = right.log.filter shown
  related : Related left.machine right.machine

namespace Interpreter

variable {ρ υ : Type} [Source ρ] [Sink υ]

/-- Two interpreters that stay together for as long as `holds` is true of the first at each
moment at which it makes an attempt: until then their machines are related, their steps
accord, and so do runs that make no attempt beyond. -/
structure InAccord (left : Interpreter σ τ) (right : Interpreter ρ υ)
    (holds : Machine σ τ -> Prop) (shown : Event -> Bool)
    (Related : Machine σ τ -> Machine ρ υ -> Prop) : Prop where
  moments : ∀ count, (∀ moment, moment < count -> holds (left.after moment)) ->
    Related (left.after count) (right.after count)
  steps : ∀ count, (∀ moment, moment ≤ count -> holds (left.after moment)) ->
    ((left.after count).step left.program).Accords shown Related
      ((right.after count).step right.program)
  runs : ∀ count fuel, (∀ moment, moment < count -> holds (left.after moment)) ->
    (Machine.stepper left.program).HoldsInRun holds fuel (left.after count) ->
    ((left.after count).run left.program fuel).Accords shown Related
      ((right.after count).run right.program fuel)

/-- Interpreters whose steppers are in accord are so themselves. -/
theorem inAccord_of_accord {left : Interpreter σ τ} {right : Interpreter ρ υ}
    {holds : Machine σ τ -> Prop} {Related : Machine σ τ -> Machine ρ υ -> Prop}
    (accord : Stepper.Accord (Machine.stepper left.program) (Machine.stepper right.program) holds
      shown Related)
    (related : Related left.machine right.machine) :
    left.InAccord right holds shown Related := by
  have moments : ∀ count, (∀ moment, moment < count -> holds (left.after moment)) ->
      Related (left.after count) (right.after count) :=
    fun count kept => accord.attempts count related kept
  refine ⟨moments, ?_, ?_⟩
  · intro count kept
    have there := moments count fun moment less => kept moment (Nat.le_of_lt less)
    exact accord.accords there (kept count (Nat.le_refl count))
  · intro count fuel kept keptOn
    obtain ⟨ending, events, relatedLast⟩ := accord.run fuel (moments count kept) keptOn
    rw [Machine.run_eq_stepper, Machine.run_eq_stepper]
    refine ⟨ending, ?_, relatedLast⟩
    simp only [Run.log, List.filter_append, ending, events]

end Interpreter

end Brainfuck
