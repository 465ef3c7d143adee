import Brainfuck.Proofs.Code.JumpTable
import Brainfuck.Proofs.Encoding.RoundTrip
import Brainfuck.Proofs.Encoding.Size
import Brainfuck.Proofs.Output.Unfailing

/-!
# The cost of running encoded texts

The passage through an encoded text counts its steps and says what it logs, character by
character. Here both are said of the text as a whole: the steps are a sum over the
distances of its characters, `textSteps_eq_sum`, and the log has one line for each long
distance, which names places by the length of the code before, `textEvents_eq_map`. With
what is logged when the code is compiled this is all that a run reports.
-/

namespace Brainfuck.Encoding

/-- The steps of going to a character at this distance and printing it. -/
def characterSteps (way : Nat) : Nat :=
  if way < 10 then way + 1
  else
    let root := nearestRoot way
    root * root + 6 * root + 4 + distance (root * root) way

/-- The steps of printing a text. -/
def runSteps (text : List Char) : Nat :=
  ((distances text).map characterSteps).sum

/-- The long distances of a text, each with the number of characters before the one that it
leads to. -/
def longWaysFrom (previous : Nat) (text : List Char) : List (Nat × Nat) :=
  (distancesFrom previous text).zipIdx.filter fun entry => 10 ≤ entry.1

/-- The loop that goes a distance is left, when so many characters stand before its code. -/
def loopExit (before way : Nat) : Event :=
  .loopSkipped (before + 1 + nearestRoot way) (before + 2 * nearestRoot way + 5)

/-- The loops of the code of a text are left, one after another. -/
def loopExits (text : List Char) : List Event :=
  (longWaysFrom 0 text).map fun entry =>
    loopExit (encode (text.take entry.2)).length entry.1

/-- The first character may be far, and the others stand one place further on. -/
theorem longWaysFrom_cons (previous : Nat) (character : Char) (rest : List Char) :
    longWaysFrom previous (character :: rest) =
      (if distance previous character.toNat < 10 then []
        else [(distance previous character.toNat, 0)]) ++
      (longWaysFrom character.toNat rest).map fun entry => (entry.1, entry.2 + 1) := by
  rw [longWaysFrom, longWaysFrom, distancesFrom_cons, List.zipIdx_cons, List.zipIdx_succ,
    List.filter_cons, List.filter_map, Function.comp_def]
  by_cases near : distance previous character.toNat < 10
  · simp [near]
  · simp [near, Nat.le_of_not_lt near]

/-- A character is gone to and printed in so many steps. -/
theorem travelSteps_add_one (way : Nat) : travelSteps way + 1 = characterSteps way := by
  unfold travelSteps characterSteps loopThreshold
  split
  · rfl
  · dsimp only
    rw [distance_eq_add]
    omega

/-- The steps of printing a text are those of its characters together. -/
theorem textSteps_eq_sum (previous : Nat) (text : List Char) :
    textSteps previous text = ((distancesFrom previous text).map characterSteps).sum := by
  induction text generalizing previous with
  | nil => rfl
  | cons character rest inductionHypothesis =>
      rw [textSteps, travelSteps_add_one, inductionHypothesis, distancesFrom_cons, List.map_cons,
        List.sum_cons]

/-- A loop is left only on a long way. -/
theorem travelEvents_eq (way place : Nat) :
    travelEvents way place = if way < 10 then [] else [loopExit place way] := by
  unfold travelEvents loopThreshold
  split
  · rfl
  · have opening : place + (nearestRoot way + 1) = place + 1 + nearestRoot way := by omega
    have closing : place + 1 + nearestRoot way + (nearestRoot way + 3) + 1 =
        place + 2 * nearestRoot way + 5 := by omega
    rw [loopExit, ← closing, ← opening]
    rfl

/-- There is nothing but symbols in what is emitted for a character. -/
@[simp] theorem length_ofCode_characterCode (previous current : Nat) :
    (Symbol.ofCode (characterCode previous current)).length =
      characterSize (distance previous current) := by
  obtain ⟨toward, away, -, heading, -⟩ := Heading.between_shifts previous current
  have output : Symbol.ofCode ['.'] = [.command .output] := rfl
  have back (rest : List Char) :
      Symbol.ofCode ('<' :: rest) = .command .moveLeft :: Symbol.ofCode rest := rfl
  rw [characterCode, heading, travelCode, characterSize, Symbol.ofCode_append, List.length_append,
    output, loopThreshold]
  generalize distance previous current = way
  split
  · simp
  · rw [loopCode_eq, Symbol.ofCode_append, List.length_append, length_ofCode_setUp]
    simp only [List.cons_append, List.nil_append, List.append_assoc, Symbol.ofCode_opening,
      Symbol.ofCode_append, Symbol.ofCode_closing, Symbol.ofCode_replicate, back, List.length_cons,
      List.length_append, List.length_nil, List.length_replicate, length_ofCode_roundCode,
      distance_eq_add]
    omega

/-- There is nothing but symbols in the code of a text. -/
theorem length_ofCode_encodeFrom (previous : Nat) (text : List Char) :
    (Symbol.ofCode (encodeFrom previous text)).length = (encodeFrom previous text).length := by
  induction text generalizing previous with
  | nil => rfl
  | cons character rest inductionHypothesis => simp [inductionHypothesis]

/-- A loop is closed on a long way only. -/
theorem count_closing_characterCode (previous current : Nat) :
    (characterCode previous current).count ']' = if distance previous current < 10 then 0 else 1 := by
  unfold characterCode travelCode loopCode Heading.between loopThreshold
  split <;> split <;> simp [List.count_replicate]

/-- The code of a text closes a loop for each long distance. -/
theorem count_closing_encodeFrom (previous : Nat) (text : List Char) :
    (encodeFrom previous text).count ']' = (distancesFrom previous text).countP (10 ≤ ·) := by
  induction text generalizing previous with
  | nil => rfl
  | cons character rest inductionHypothesis =>
      rw [encodeFrom_cons, List.count_append, count_closing_characterCode, inductionHypothesis,
        distancesFrom_cons, List.countP_cons, Nat.add_comm]
      congr 1
      by_cases near : distance previous character.toNat < 10
      · simp [near]
      · simp [near, Nat.le_of_not_lt near]

/-- The log of printing a text has a line for each long distance, at the place that the
code before it leaves off. -/
theorem textEvents_eq_map (previous : Nat) (text : List Char) (place : Nat) :
    textEvents previous text place = (longWaysFrom previous text).map fun entry =>
      loopExit (place + (encodeFrom previous (text.take entry.2)).length) entry.1 := by
  induction text generalizing previous place with
  | nil => rfl
  | cons character rest inductionHypothesis =>
      rw [textEvents, travelEvents_eq, length_ofCode_characterCode, inductionHypothesis,
        longWaysFrom_cons, List.map_append, List.map_map]
      congr 1
      · split <;> simp
      · apply List.map_congr_left
        intro entry _
        simp [Nat.add_assoc]

/-- The program of the code of a text has as many loops as the text has long distances. -/
theorem compiled_encode {text : List Char} {program : Program}
    (symbols : program.instructions.toList.map Instruction.symbol = Symbol.ofCode (encode text)) :
    program.compiled = .compiled (encode text).length ((distances text).countP (10 ≤ ·)) := by
  rw [Program.compiled_of_symbols symbols, encode, length_ofCode_encodeFrom,
    count_closing_encodeFrom, distances]

/-- From a place at the start of the program on, the log names places in the code of the
text. -/
theorem textEvents_eq_loopExits (text : List Char) : textEvents 0 text 0 = loopExits text := by
  simp only [textEvents_eq_map, Nat.zero_add, loopExits, encode]

variable {σ τ : Type} [Source σ] [Sink τ]

/-- For every text, every tape of at least two cells, every source and every sink that takes
what it is given: a run of the code of the text comes to its end after the steps that the
distances of the text ask for, and all that is logged from the compilation on is the size
of the program, the end of each of its loops, and the number of these steps. -/
theorem run_encode_cost (text : List Char) {length : Nat} (roomForTwo : 2 ≤ length) (source : σ)
    {sink : τ} (unfailing : Sink.Unfailing sink) :
    (∀ way ∈ distances text, RootIsRounded way) ∧
      ∃ interpreter : Interpreter σ τ,
        Interpreter.build (encode text)
          (.blank length (Nat.lt_of_lt_of_le (by decide) roomForTwo)) source sink =
            .ok interpreter ∧
        ∃ fuel, (interpreter.run fuel).ending = .finished (runSteps text) ∧
          Interpreter.compilationEvents (encode text) ++ (interpreter.run fuel).log =
            .compiled (encode text).length ((distances text).countP (10 ≤ ·)) ::
              (loopExits text ++ [.finished (runSteps text)]) := by
  obtain ⟨room, rfl⟩ := Nat.exists_eq_add_of_le' roomForTwo
  obtain ⟨program, parsed, symbols, path⟩ := (traverses_encode room source text).run
  obtain ⟨fuel, ran⟩ := Machine.exists_run_of_path path (by simp [Machine.finished])
  let tape := Tape.blank (room + 2) (Nat.succ_pos (room + 1))
  have together : Interpreter.InLockStep ⟨program, .start tape source sink⟩
      ⟨program, .start tape source Buffer.empty⟩ _ :=
    Interpreter.inLockStep_of_lockStep (Machine.lockStep_of_unfailing program)
      ⟨rfl, rfl, rfl, unfailing, Buffer.empty.unfailing⟩
  have ending := (together.endings 0 fuel).trans (congrArg Run.ending ran)
  have log := (together.logs 0 fuel).trans (congrArg Run.log ran)
  have compiled : Interpreter.compilationEvents (encode text) = [program.compiled] := by
    rw [Interpreter.compilationEvents, parsed]
  refine ⟨?_, _, Interpreter.build_of_parse parsed tape source sink, fuel, ?_, ?_⟩
  · intro way member approximation close
    have inRange := le_of_mem_distancesFrom (Nat.zero_le 0x10ffff) way member
    exact round_eq_nearestRoot_of_le inRange close
  · rw [runSteps, distances, ← textSteps_eq_sum]
    exact ending
  · rw [compiled, compiled_encode symbols, List.singleton_append, runSteps, distances,
      ← textSteps_eq_sum, ← textEvents_eq_loopExits]
    exact congrArg _ log

/-- A rising, a short and a falling way, on a tape with no cell to spare, between a source
that only fails and a writer that is interrupted and takes a part of what it is offered. -/
theorem run_encode_cost_streaming :
    2 ≤ 2 ∧ Sink.Unfailing
        (Stream.fresh (WriteScript.mk [.failure ⟨.interrupted, ""⟩, .upTo 1] []) .utf8) ∧
      (∀ way ∈ distances ['é', 'ê', 'B'], RootIsRounded way) ∧
      ∃ interpreter : Interpreter CellScript (Stream WriteScript),
        Interpreter.build (encode ['é', 'ê', 'B']) (.blank 2 (by decide))
          (CellScript.mk [.error .writeZero])
          (Stream.fresh (WriteScript.mk [.failure ⟨.interrupted, ""⟩, .upTo 1] []) .utf8) =
            .ok interpreter ∧
        ∃ fuel, (interpreter.run fuel).ending = .finished 581 ∧
          Interpreter.compilationEvents (encode ['é', 'ê', 'B']) ++ (interpreter.run fuel).log =
            [.compiled 83 2, .loopSkipped 16 35, .loopSkipped 62 79, .finished 581] := by
  have obliging : Writer.Obliging (WriteScript.mk [.failure ⟨.interrupted, ""⟩, .upTo 1] []) := by
    apply WriteScript.Obliges.obliging
    constructor
    · simp [WriteAnswer.Obliges, IoFailure.isInterruption]
    · simp
  have unfailing := Stream.unfailing_of_obliging obliging .utf8
  have roomForTwo : 2 ≤ 2 := Nat.le_refl 2
  exact ⟨roomForTwo, unfailing, run_encode_cost ['é', 'ê', 'B'] roomForTwo _ unfailing⟩

end Brainfuck.Encoding
