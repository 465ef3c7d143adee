import Brainfuck.Proofs.Code.Partner
import Brainfuck.Proofs.Semantics.Simulation

/-!
# The jump table has no observable effect

A scanner that looks for the partner of a bracket each time it needs it, and the
machine that finds the partner's place in its program, go through the same
states. The machine that a scanner is `compiled` to stands at the number of
symbols before the cursor; comments are the silent steps of the simulation.
-/

namespace Brainfuck

variable {σ τ : Type} [Source σ] [Sink τ]

namespace Scanner

/-- A scanner as a machine: comments before the cursor take no place. -/
def compiled {σ τ : Type} (code : List Char) (scanner : Scanner σ τ) : Machine σ τ where
  state := scanner.state
  now := Symbol.countBefore code scanner.cursor

/-- A scanner reports everything but the loops that a machine skips by a jump. -/
def reports : Event -> Bool
  | .loopSkipped .. => false
  | _ => true

/-- At a comment a scanner stays the same machine. -/
theorem stepSilently {code : List Char} {scanner : Scanner σ τ} {character : Char}
    (here : code[scanner.cursor]? = some character)
    (meaningless : Symbol.ofChar? character = none) :
    Stepper.StepSilently (stepper code) (fun scanner machine => scanner.compiled code = machine)
      (fun scanner => code.length - scanner.cursor) scanner (scanner.compiled code) := by
  have inside := (List.getElem?_eq_some_iff.mp here).1
  have stepped : (stepper code).step scanner = ⟨⟨scanner.state, scanner.cursor + 1⟩, none, []⟩ :=
    step_of_comment here meaningless
  refine ⟨by simp [stepper, here, meaningless], by rw [stepped], by rw [stepped], ?_, ?_⟩
  · rw [stepped]
    show code.length - (scanner.cursor + 1) < code.length - scanner.cursor
    omega
  · rw [stepped]
    simp [compiled, Symbol.countBefore_succ_of_comment here meaningless]

/-- At any other character a scanner and its machine take the same step. -/
theorem stepTogether {block : Block} {scanner : Scanner σ τ} {character : Char} {symbol : Symbol}
    (here : block.code[scanner.cursor]? = some character)
    (means : Symbol.ofChar? character = some symbol) :
    Stepper.StepTogether (stepper block.code) (Machine.stepper (Program.ofBlock block)) reports
      (fun scanner machine => scanner.compiled block.code = machine) scanner
      (scanner.compiled block.code) := by
  obtain ⟨instruction, stands, renders⟩ :=
    (Program.carries_ofBlock block).rendersAt here means
  rw [Nat.zero_add] at stands
  have unfinished : (Machine.stepper (Program.ofBlock block)).finished
      (scanner.compiled block.code) = false := Machine.unfinished_of_get? stands
  have weight : (stepper block.code).weight scanner = 1 := by simp [stepper, here, means]
  have counted := Symbol.countBefore_succ_of_symbol here means
  rcases scanner with ⟨state, cursor⟩
  cases renders with
  | @command action isCommand =>
      rcases performed : state.perform action with ⟨next, _ | failure, events⟩
      · refine .of_steps unfinished weight (step_of_performed isCommand performed)
          (Machine.step_of_performed stands performed) rfl ?_
        simp [compiled, counted]
      · exact .of_steps unfinished weight (step_of_failed isCommand performed)
          (Machine.step_of_failed stands performed) rfl rfl
  | @opening closing partners =>
      have isOpening := partners.opening_bracket
      by_cases zero : state.tape.cell = 0
      · have found := closingPartner?_of_partners partners
        refine .of_steps unfinished weight (step_of_zero isOpening zero found)
          (Machine.step_of_zero stands zero) rfl ?_
        have means : Symbol.ofChar? ']' = some (.bracket .closing) := rfl
        have countedClosing := Symbol.countBefore_succ_of_symbol partners.closing_bracket means
        simp [compiled, countedClosing]
      · refine .of_steps unfinished weight (step_of_nonzero isOpening zero)
          (Machine.step_of_nonzero stands zero) rfl ?_
        simp [compiled, counted]
  | @closing opening partners =>
      have found := openingPartner?_of_partners partners
      refine .of_steps unfinished weight (step_of_closing partners.closing_bracket found)
        (Machine.step_of_loopEnd stands) rfl ?_
      simp [compiled]

/-- A scanner of the code of a block and the machine of its program simulate each
other. -/
def simulation (block : Block) :
    Stepper.Simulation (stepper block.code : Stepper (Scanner σ τ))
      (Machine.stepper (Program.ofBlock block) : Stepper (Machine σ τ)) reports where
  Related scanner machine := scanner.compiled block.code = machine
  remaining scanner := block.code.length - scanner.cursor
  finishes := by
    rintro scanner machine rfl finished
    have behind : block.code.length ≤ scanner.cursor := of_decide_eq_true finished
    simp [Machine.stepper, Machine.finished, compiled, Symbol.countBefore_of_length_le behind,
      Program.size, Program.ofBlock]
  proceeds := by
    rintro scanner machine rfl unfinished
    have inside : scanner.cursor < block.code.length :=
      Nat.lt_of_not_le (of_decide_eq_false unfinished)
    have here := List.getElem?_eq_getElem inside
    cases means : Symbol.ofChar? block.code[scanner.cursor] with
    | none => exact .inr (stepSilently here means)
    | some symbol => exact .inl (stepTogether here means)

/-- Behind the code a scanner stays where it is, and that counts for nothing. -/
theorem step_of_finished {code : List Char} {scanner : Scanner σ τ}
    (finished : (stepper code).finished scanner = true) :
    (stepper code).weight scanner = 0 ∧ (stepper code).step scanner = ⟨scanner, none, []⟩ := by
  have behind : code.length ≤ scanner.cursor := of_decide_eq_true finished
  have nothing : code[scanner.cursor]? = none := List.getElem?_eq_none behind
  simp [stepper, step, nothing]

/-- At a symbol a scanner fails as its machine does, elsewhere it does not fail. -/
theorem failure?_step (block : Block) (scanner : Scanner σ τ) :
    (scanner.step block.code).failure? =
      if (stepper block.code).weight scanner = 0 then none
      else ((scanner.compiled block.code).step (Program.ofBlock block)).failure? := by
  cases finished : (stepper block.code).finished scanner with
  | true =>
      obtain ⟨weightless, stays⟩ := step_of_finished finished
      rw [if_pos weightless]
      exact congrArg Attempt.failure? stays
  | false =>
      rcases (simulation block).proceeds rfl finished with together | silent
      · have weight : (stepper block.code).weight scanner = 1 := together.weight
        rw [if_neg (by omega)]
        exact together.failure?
      · rw [if_pos silent.weightless]
        exact silent.failure?

end Scanner

/-- An interpreter mirrors a scanner. After any number of attempts of the
scanner, failed ones included, its machine is the one that the scanner is
compiled to, and at a symbol both fail alike. Its runs succeed after as many
steps as the scanner executes symbols, fail, or go on for ever together with
those of the scanner. -/
structure Interpreter.Mirrors (interpreter : Interpreter σ τ) (code : List Char)
    (scanner : Scanner σ τ) : Prop where
  moments : ∀ count,
    (Machine.stepper interpreter.program).attempts ((Scanner.stepper code).spent count scanner)
        interpreter.machine =
      ((Scanner.stepper code).attempts count scanner).compiled code
  failures : ∀ count reached, (Scanner.stepper code).attempts count scanner = reached ->
    (reached.step code).failure? =
      if (Scanner.stepper code).weight reached = 0 then none
      else ((reached.compiled code).step interpreter.program).failure?
  succeeds : ∀ steps final, interpreter.Succeeds steps final ↔
    ∃ last, (Scanner.stepper code).Succeeds scanner steps last ∧ last.compiled code = final
  fails : ∀ failure final, interpreter.Fails failure final ↔
    ∃ last, (Scanner.stepper code).Fails scanner failure last ∧ last.compiled code = final
  diverges : interpreter.Diverges ↔ (Scanner.stepper code).Diverges scanner

/-- The machine of the program of a block mirrors the scanner of its code. -/
theorem Interpreter.mirrors_ofBlock (block : Block) (tape : Tape) (source : σ) (sink : τ) :
    Interpreter.Mirrors ⟨Program.ofBlock block, Machine.start tape source sink⟩ block.code
      (Scanner.start tape source sink) := by
  let simulation : Stepper.Simulation (Scanner.stepper block.code : Stepper (Scanner σ τ)) _ _ :=
    Scanner.simulation block
  have related : simulation.Related (Scanner.start tape source sink)
      (Machine.start tape source sink) := rfl
  constructor
  · intro count
    have idle : ∀ {scanner : Scanner σ τ}, (Scanner.stepper block.code).finished scanner = true ->
        (Scanner.stepper block.code).weight scanner = 0 ∧
          ((Scanner.stepper block.code).step scanner).after = scanner := by
      intro scanner finished
      obtain ⟨weightless, stays⟩ := Scanner.step_of_finished finished
      exact ⟨weightless, by rw [stays]⟩
    exact (simulation.attempts_related idle (fun _ => rfl) count related).symm
  · intro count reached _
    exact Scanner.failure?_step block reached
  · intro steps final
    rw [Interpreter.succeeds_iff]
    constructor
    · intro succeeds
      exact simulation.succeeds_left succeeds related
    · rintro ⟨last, succeeds, rfl⟩
      obtain ⟨final, succeedsRight, rfl⟩ := simulation.succeeds_right succeeds related
      exact succeedsRight
  · intro failure final
    rw [Interpreter.fails_iff]
    constructor
    · intro fails
      exact simulation.fails_left fails related
    · rintro ⟨last, fails, rfl⟩
      obtain ⟨final, failsRight, rfl⟩ := simulation.fails_right fails related
      exact failsRight
  · rw [Interpreter.diverges_iff]
    exact (simulation.diverges_iff related).symm

/-- A balanced code is compiled to a program whose machine mirrors the scanner of
the code: on every tape and between every source and sink, the jumps resolved in
advance lead where a scan of the code would lead. -/
theorem jumps_mirror_scans {code : List Char} (balanced : Balanced code) (tape : Tape)
    (source : σ) (sink : τ) :
    ∃ interpreter : Interpreter σ τ,
      Interpreter.build code tape source sink = .ok interpreter ∧
        interpreter.Mirrors code (Scanner.start tape source sink) := by
  obtain ⟨block, rfl⟩ := balanced.exists_block
  refine ⟨⟨Program.ofBlock block, Machine.start tape source sink⟩, ?_, ?_⟩
  · exact Interpreter.build_of_parse block.parse_code tape source sink
  · exact Interpreter.mirrors_ofBlock block tape source sink

/-- Comments shift the places of nested loops around a source that fails. -/
theorem jumps_mirror_scans_commented :
    Balanced ['x', ',', '[', 'y', '.', '[', '-', 'z', ']', ',', ']'] ∧
      ∃ interpreter : Interpreter CellScript Buffer,
        Interpreter.build ['x', ',', '[', 'y', '.', '[', '-', 'z', ']', ',', ']'] .standard
            (CellScript.mk [.ok 2, .error .writeZero]) .empty = .ok interpreter ∧
          interpreter.Mirrors ['x', ',', '[', 'y', '.', '[', '-', 'z', ']', ',', ']']
            (Scanner.start .standard (CellScript.mk [.ok 2, .error .writeZero]) .empty) :=
  ⟨by decide, jumps_mirror_scans (by decide) _ _ _⟩

end Brainfuck
