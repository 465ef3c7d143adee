import Brainfuck.Encoding
import Brainfuck.Proofs.Encoding.TwoCells
import Brainfuck.Proofs.Semantics.Traversal

/-!
# The footprint of encoded texts

How a machine goes through an encoded text. All the way it uses two cells only,
whose numbers stay between fixed bounds, and it prints from the first cell when
that cell holds the code of the character whose turn it is: `Footprint`. The
passage is put together from runs of signs and from loops that count the second
cell down; `traverses_encodeFrom` is the passage of a whole text, by induction on
the text with the first cell holding the code of the character before.
-/

namespace Brainfuck.Encoding

variable {σ : Type}

/-- A sign adds this much to the current cell. -/
inductive Shifts : Command -> Int -> Prop where
  | up : Shifts .increment 1
  | down : Shifts .decrement (-1)

/-- The signs of a heading lead from one number to the other, and back. -/
theorem Heading.between_shifts (previous current : Nat) :
    ∃ toward away unit, between previous current = ⟨toward.toChar, away.toChar⟩ ∧
      Shifts toward unit ∧ Shifts away (-unit) ∧
      (current : Int) = previous + unit * distance previous current := by
  unfold between distance
  by_cases less : previous < current
  · refine ⟨.increment, .decrement, 1, ?_, .up, .down, ?_⟩
    · simp [less, Command.toChar]
    · omega
  · refine ⟨.decrement, .increment, -1, ?_, .down, .up, ?_⟩
    · simp [less, Command.toChar]
    · omega

/-- The bounds that the two numbers keep. -/
structure Within (value counter : Int) : Prop where
  value_ge : -1055 ≤ value
  value_le : value ≤ 0x10ffff + 1055
  counter_nonneg : 0 ≤ counter
  counter_le : counter ≤ 1056

/-- What each symbol needs when `printed` characters of a text have been printed:
the moves never go over an end, the brackets look at the second cell, and what is
printed is the next character of the text. -/
def Fits (text : List Char) (printed : Nat) (value counter : Int) (pointer : Fin 2) :
    Symbol -> Prop
  | .command .moveRight => pointer = 0
  | .command .moveLeft => pointer = 1
  | .command .increment => True
  | .command .decrement => True
  | .command .output => pointer = 0 ∧ counter = 0 ∧
      ∃ character, text[printed]? = some character ∧ value = character.toNat
  | .command .input => False
  | .bracket _ => pointer = 1

/-- What is true wherever a machine stands in an encoded text. -/
def Footprint (room : Nat) (text : List Char) (symbol : Symbol) (state : State σ Buffer) : Prop :=
  ∃ value counter pointer, state.tape = .twoCells room value counter pointer ∧
    Within value counter ∧ Fits text state.sink.text.length value counter pointer symbol

/-- The state with these numbers in its two cells and this text printed. -/
def stage (room : Nat) (source : σ) (printed : List Char) (value counter : Int)
    (pointer : Fin 2) : State σ Buffer where
  tape := .twoCells room value counter pointer
  source := source
  sink := ⟨String.ofList printed⟩

variable {room : Nat} {source : σ} {text printed : List Char} {value counter : Int}

/-- A state within the bounds has the footprint of what fits. -/
theorem Within.footprint {pointer : Fin 2} {symbol : Symbol} (within : Within value counter)
    (fits : Fits text printed.length value counter pointer symbol) :
    Footprint room text symbol (stage room source printed value counter pointer) := by
  refine ⟨value, counter, pointer, rfl, within, ?_⟩
  simpa [stage] using fits

variable [Source σ]

/-- Performing a sign adds its unit to the current cell. -/
theorem Shifts.perform {action : Command} {unit : Int} (shifts : Shifts action unit)
    (tape : Tape) (sink : Buffer) :
    State.perform ⟨tape, source, sink⟩ action =
      ⟨⟨tape.store (tape.cell + Int64.ofInt unit), source, sink⟩, none, []⟩ := by
  cases shifts with
  | up => simp [State.perform]
  | down => simp [State.perform, Int64.sub_eq_add_neg]

/-- A sign at the first cell. -/
theorem traverses_shift_first {action : Command} {unit next : Int} (shifts : Shifts action unit)
    (within : Within value counter) (shifted : next = value + unit) :
    Traverses (Footprint room text) [action.toChar]
      (stage room source printed value counter 0) 1 silence
      (stage room source printed next counter 0) := by
  have fits : Fits text printed.length value counter 0 (.command action) := by
    cases shifts <;> trivial
  refine .command (within.footprint fits) ?_
  rw [stage, shifts.perform, Tape.cell_twoCells_first, ← Int64.ofInt_add,
    Tape.store_twoCells_first, stage, shifted]

/-- A sign at the second cell. -/
theorem traverses_shift_second {action : Command} {unit next : Int} (shifts : Shifts action unit)
    (within : Within value counter) (shifted : next = counter + unit) :
    Traverses (Footprint room text) [action.toChar]
      (stage room source printed value counter 1) 1 silence
      (stage room source printed value next 1) := by
  have fits : Fits text printed.length value counter 1 (.command action) := by
    cases shifts <;> trivial
  refine .command (within.footprint fits) ?_
  rw [stage, shifts.perform, Tape.cell_twoCells_second, ← Int64.ofInt_add,
    Tape.store_twoCells_second, stage, shifted]

/-- A move from the first cell to the second. -/
theorem traverses_moveRight (within : Within value counter) :
    Traverses (Footprint room text) ['>'] (stage room source printed value counter 0) 1 silence
      (stage room source printed value counter 1) := by
  have fits : Fits text printed.length value counter 0 (.command .moveRight) := rfl
  have performed : (stage room source printed value counter 0).perform .moveRight =
      ⟨stage room source printed value counter 1, none, []⟩ := by
    simp [stage, State.perform]
  exact .command (within.footprint fits) performed

/-- A move from the second cell back to the first. -/
theorem traverses_moveLeft (within : Within value counter) :
    Traverses (Footprint room text) ['<'] (stage room source printed value counter 1) 1 silence
      (stage room source printed value counter 0) := by
  have fits : Fits text printed.length value counter 1 (.command .moveLeft) := rfl
  have performed : (stage room source printed value counter 1).perform .moveLeft =
      ⟨stage room source printed value counter 0, none, []⟩ := by
    simp [stage, State.perform]
  exact .command (within.footprint fits) performed

/-- The character whose turn it is is printed from the first cell. -/
theorem traverses_output {character : Char} (within : Within character.toNat 0)
    (turn : text[printed.length]? = some character) :
    Traverses (Footprint room text) ['.'] (stage room source printed character.toNat 0 0) 1
      silence (stage room source (printed ++ [character]) character.toNat 0 0) := by
  have fits : Fits text printed.length character.toNat 0 0 (.command .output) :=
    ⟨rfl, rfl, character, turn, rfl⟩
  have performed : (stage room source printed character.toNat 0 0).perform .output =
      ⟨stage room source (printed ++ [character]) character.toNat 0 0, none, []⟩ := by
    have pushed : (String.ofList printed).push character = String.ofList (printed ++ [character]) :=
      String.toList_inj.mp (by simp)
    simp only [stage, State.perform, Tape.cell_twoCells_first, Cell.toChar_ofInt, Sink.put, pushed]
  exact .command (within.footprint fits) performed

/-- A run of signs at the first cell. -/
theorem traverses_signs_first {action : Command} {unit next : Int} (shifts : Shifts action unit)
    {count : Nat} (start : Within value counter) (stop : Within next counter)
    (shifted : next = value + unit * count) :
    Traverses (Footprint room text) (List.replicate count action.toChar)
      (stage room source printed value counter 0) count silence
      (stage room source printed next counter 0) := by
  subst shifted
  let states := fun done : Nat => stage room source printed (value + unit * done) counter 0
  have each : ∀ done, done < count -> Traverses (Footprint room text) [action.toChar]
      (states done) 1 silence (states (done + 1)) := by
    intro done less
    have within : Within (value + unit * done) counter := by
      obtain ⟨startGe, startLe, counterGe, counterLe⟩ := start
      obtain ⟨stopGe, stopLe, -, -⟩ := stop
      cases shifts <;> constructor <;> omega
    have shifted : value + unit * (done + 1 : Nat) = value + unit * done + unit := by
      rw [Int.natCast_add, Int.mul_add]
      omega
    exact traverses_shift_first shifts within shifted
  have all := Traverses.replicate each
  simpa [states] using all

/-- A run of increments at the second cell. -/
theorem traverses_signs_second {count : Nat} (start : Within value 0) (stop : Within value count) :
    Traverses (Footprint room text) (List.replicate count '+')
      (stage room source printed value 0 1) count silence
      (stage room source printed value count 1) := by
  let states := fun done : Nat => stage room source printed value done 1
  have each : ∀ done, done < count -> Traverses (Footprint room text) ['+']
      (states done) 1 silence (states (done + 1)) := by
    intro done less
    have within : Within value done := by
      obtain ⟨valueGe, valueLe, -, -⟩ := start
      obtain ⟨-, -, -, counterLe⟩ := stop
      constructor <;> omega
    exact traverses_shift_second .up within rfl
  exact Traverses.replicate each

/-- The body of the loop that goes a distance: from the second cell to the first
one, where it adds `root` units, and back to count one round less. -/
def roundCode (action : Command) (root : Nat) : List Char :=
  ['<'] ++ (List.replicate root action.toChar ++ (['>'] ++ ['-']))

/-- One round of the loop. -/
theorem traverses_roundCode {action : Command} {unit next : Int} (shifts : Shifts action unit)
    {root left : Nat} (start : Within value (left + 1 : Nat)) (stop : Within next (left + 1 : Nat))
    (shifted : next = value + unit * root) :
    Traverses (Footprint room text) (roundCode action root)
      (stage room source printed value (left + 1 : Nat) 1) (root + 3) silence
      (stage room source printed next left 1) := by
  have counted : (left : Int) = (left + 1 : Nat) + -1 := by omega
  have steps : 1 + (root + (1 + 1)) = root + 3 := by omega
  rw [← steps]
  refine Traverses.append_silent (traverses_moveLeft start) ?_
  refine Traverses.append_silent (traverses_signs_first shifts start stop shifted) ?_
  refine Traverses.append_silent (traverses_moveRight stop) ?_
  exact traverses_shift_second .down stop counted

/-- The number of symbols of a round. -/
theorem length_ofCode_roundCode (action : Command) (root : Nat) :
    (Symbol.ofCode (roundCode action root)).length = root + 3 := by
  have moveLeft : Symbol.ofCode ['<'] = [.command .moveLeft] := rfl
  have moveRight : Symbol.ofCode ['>'] = [.command .moveRight] := rfl
  have decrement : Symbol.ofCode ['-'] = [.command .decrement] := rfl
  simp only [roundCode, Symbol.ofCode_append, Symbol.ofCode_replicate, moveLeft, moveRight,
    decrement, List.length_append, List.length_replicate, List.length_singleton]
  omega

/-- There is no bracket in a round. -/
theorem balanced_roundCode (action : Command) (root : Nat) : Balanced (roundCode action root) := by
  have noBracket : ∀ character ∈ roundCode action root, character ≠ '[' ∧ character ≠ ']' := by
    intro character member
    simp only [roundCode, List.mem_append, List.mem_singleton, List.mem_replicate] at member
    rcases member with rfl | ⟨-, rfl⟩ | rfl | rfl
    · decide
    · cases action <;> decide
    · decide
    · decide
  exact balanced_of_no_bracket noBracket

/-- A number of rounds is not taken for zero. -/
theorem ofInt_ne_zero {number : Int} (positive : 0 < number) (small : number ≤ 1056) :
    Int64.ofInt number ≠ 0 := by
  intro zero
  have same := congrArg Int64.toInt zero
  rw [Int64.toInt_ofInt_of_le (by omega) (by omega), Int64.toInt_zero] at same
  omega

/-- The first cell of a loop that leads to `goal`, when so many rounds are left: it
is as far from the goal as they will take it. -/
def valueBefore (goal unit : Int) (root left : Nat) : Int :=
  goal - unit * (root * left)

/-- One round takes the first cell as far as the next round needs it. -/
theorem valueBefore_eq_add (goal unit : Int) (root left : Nat) :
    valueBefore goal unit root left = valueBefore goal unit root (left + 1) + unit * root := by
  rw [valueBefore, valueBefore, Int.natCast_add, Int.natCast_one, Int.mul_add, Int.mul_one,
    Int.mul_add]
  omega

/-- Between the first and the last round the bounds are kept. -/
theorem Shifts.within_valueBefore {action : Command} {unit goal : Int}
    (shifts : Shifts action unit) {root left : Nat} (start : Within value root)
    (stop : Within goal root) (shifted : goal = value + unit * (root * root))
    (atMost : left ≤ root) : Within (valueBefore goal unit root left) left := by
  have product : (root : Int) * left ≤ root * root := by
    exact_mod_cast Nat.mul_le_mul_left root atMost
  have nonneg : 0 ≤ (root : Int) * left := by
    exact_mod_cast Nat.zero_le (root * left)
  obtain ⟨startGe, startLe, counterGe, counterLe⟩ := start
  obtain ⟨stopGe, stopLe, -, -⟩ := stop
  unfold valueBefore
  cases shifts <;> constructor <;> omega

/-- As many rounds of `root` signs as the second cell says, until it is zero. -/
theorem traverses_loop {action : Command} {unit goal : Int} (shifts : Shifts action unit)
    {root : Nat} (start : Within value root) (stop : Within goal root)
    (shifted : goal = value + unit * (root * root)) :
    Traverses (Footprint room text) ('[' :: (roundCode action root ++ [']']))
      (stage room source printed value root 1) (root * (root + 3 + 2) + 1)
      (exitEvents (root + 3)) (stage room source printed goal 0 1) := by
  let states := fun left : Nat =>
    stage room source printed (valueBefore goal unit root left) left 1
  have within : ∀ left : Nat, left ≤ root -> Within (valueBefore goal unit root left) left :=
    fun left atMost => shifts.within_valueBefore start stop shifted atMost
  have round : ∀ left, left < root -> Traverses (Footprint room text) (roundCode action root)
      (states (left + 1)) (root + 3) silence (states left) := by
    intro left less
    have before := within (left + 1) less
    have after := within left (Nat.le_of_lt less)
    have reached : Within (valueBefore goal unit root left) (left + 1 : Nat) :=
      ⟨after.value_ge, after.value_le, before.counter_nonneg, before.counter_le⟩
    exact traverses_roundCode shifts before reached (valueBefore_eq_add goal unit root left)
  have brackets : ∀ (left : Nat) (side : Bracket), left ≤ root ->
      Footprint room text (.bracket side) (states left) :=
    fun left side atMost => (within left atMost).footprint rfl
  have nonzero : ∀ left, left < root -> (states (left + 1)).tape.cell ≠ 0 := by
    intro left less
    exact ofInt_ne_zero (by omega) (within (left + 1) less).counter_le
  have all := Traverses.rounds (balanced_roundCode action root)
    (fun left atMost => brackets left .opening atMost)
    (fun left less => brackets left .closing (Nat.le_of_lt less)) rfl nonzero round
  have first : valueBefore goal unit root root = value := by
    unfold valueBefore
    omega
  have last : valueBefore goal unit root 0 = goal := by simp [valueBefore]
  rw [length_ofCode_roundCode] at all
  simpa only [states, first, last, Int.natCast_zero] using all

end Brainfuck.Encoding
