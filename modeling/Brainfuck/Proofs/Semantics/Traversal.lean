import Brainfuck.Proofs.Code.Layout
import Brainfuck.Proofs.Code.Tree
import Brainfuck.Semantics.Stepper

/-!
# Going through a code

A machine `Traverses` a code if it goes from the code's first place to the place
behind it without a failure, wherever that code stands in a program. What the
machine does there is put together from what it does in the parts of the code:
`Traverses.append` for a sequence, `Traverses.command` for one command, and
`Traverses.rounds` for a loop that counts down. The log depends on the place,
because a loop that is left is reported by the places of its brackets.
-/

namespace Brainfuck

variable {σ τ : Type} [Source σ] [Sink τ]

/-- There is a next instruction, and `holds` is true of its symbol and the state. -/
def Machine.Meets (program : Program) (holds : Symbol -> State σ τ -> Prop)
    (machine : Machine σ τ) : Prop :=
  ∃ instruction, program.get? machine.now = some instruction ∧
    holds instruction.symbol machine.state

/-- A successful step is a path of one step. -/
theorem Machine.path_of_step {program : Program} {holds : Symbol -> State σ τ -> Prop}
    {machine next : Machine σ τ} {instruction : Instruction} {events : List Event}
    (here : program.get? machine.now = some instruction)
    (allowed : holds instruction.symbol machine.state)
    (stepped : machine.step program = ⟨next, none, events⟩) :
    (stepper program).Path (Meets program holds) machine 1 events next :=
  .single ⟨instruction, here, allowed⟩ (unfinished_of_get? here) stepped

/-- A machine goes through a code in so many steps, each of them taken where
`holds` is true of the symbol and the state. The events are those of the code
standing at a place. -/
def Traverses (holds : Symbol -> State σ τ -> Prop) (code : List Char) (state : State σ τ)
    (steps : Nat) (events : Nat -> List Event) (final : State σ τ) : Prop :=
  ∃ block : Block, block.code = code ∧ ∀ (program : Program) (place : Nat),
    program.Carries place block ->
      (Machine.stepper program).Path (Machine.Meets program holds) ⟨state, place⟩ steps
        (events place) ⟨final, place + block.size⟩

/-- Nothing is logged, wherever the code stands. -/
def silence : Nat -> List Event :=
  fun _ => []

/-- A loop is left: the places of its brackets, when its body has so many symbols. -/
def exitEvents (bodySize : Nat) : Nat -> List Event :=
  fun place => [.loopSkipped place (place + bodySize + 1)]

namespace Traverses

variable {holds : Symbol -> State σ τ -> Prop} {state middle final : State σ τ}
  {steps later : Nat} {events logged : Nat -> List Event}

/-- The same passage, counted and logged in other words. -/
theorem congr {code : List Char} {otherSteps : Nat} {otherEvents : Nat -> List Event}
    (traverses : Traverses holds code state steps events final)
    (sameSteps : steps = otherSteps) (sameEvents : ∀ place, events place = otherEvents place) :
    Traverses holds code state otherSteps otherEvents final := by
  obtain rfl : events = otherEvents := funext sameEvents
  exact sameSteps ▸ traverses

/-- There is nothing to do in an empty code. -/
theorem nil : Traverses holds [] state 0 silence state :=
  ⟨.done, rfl, fun _ _ _ => .refl⟩

/-- A command that is performed is one step. -/
theorem command {action : Command} {reported : List Event} (here : holds (.command action) state)
    (performed : state.perform action = ⟨final, none, reported⟩) :
    Traverses holds [action.toChar] state 1 (fun _ => reported) final := by
  refine ⟨.command action .done, rfl, ?_⟩
  intro program place carries
  obtain ⟨instruction, -⟩ := Program.carries_command_iff.mp carries
  exact Machine.path_of_step instruction here (Machine.step_of_performed instruction performed)

/-- Two codes in a row are gone through one after the other. -/
theorem append {left right : List Char} (first : Traverses holds left state steps events middle)
    (second : Traverses holds right middle later logged final) :
    Traverses holds (left ++ right) state (steps + later)
      (fun place => events place ++ logged (place + (Symbol.ofCode left).length)) final := by
  obtain ⟨block, rfl, through⟩ := first
  obtain ⟨next, rfl, onward⟩ := second
  refine ⟨block.append next, Block.code_append block next, ?_⟩
  intro program place carries
  obtain ⟨carriesBlock, carriesNext⟩ := Program.carries_append_iff.mp carries
  rw [Block.length_ofCode_code, Block.size_append, ← Nat.add_assoc]
  exact (through program place carriesBlock).trans (onward program _ carriesNext)

/-- Two codes of which the first is silent. -/
theorem append_silent {left right : List Char}
    (first : Traverses holds left state steps silence middle)
    (second : Traverses holds right middle later silence final) :
    Traverses holds (left ++ right) state (steps + later) silence final :=
  first.append second

/-- The same character again and again, through a series of states. -/
theorem replicate {character : Char} {states : Nat -> State σ τ} {count : Nat}
    (each : ∀ done, done < count ->
      Traverses holds [character] (states done) 1 silence (states (done + 1))) :
    Traverses holds (List.replicate count character) (states 0) count silence (states count) := by
  induction count with
  | zero => exact nil
  | succ count inductionHypothesis =>
      rw [List.replicate_succ']
      have before := inductionHypothesis fun done less => each done (Nat.lt_succ_of_lt less)
      exact before.append_silent (each count (Nat.lt_succ_self count))

/-- A loop on a zero cell is one step. -/
theorem skip {body : List Char} (balanced : Balanced body)
    (opening : holds (.bracket .opening) state) (zero : state.tape.cell = 0) :
    Traverses holds ('[' :: (body ++ [']'])) state 1 (exitEvents (Symbol.ofCode body).length)
      state := by
  obtain ⟨block, rfl⟩ := balanced.exists_block
  refine ⟨.loop block .done, rfl, ?_⟩
  intro program place carries
  obtain ⟨here, -⟩ := Program.carries_loop_iff.mp carries
  rw [Block.length_ofCode_code]
  exact Machine.path_of_step here opening (Machine.step_of_zero here zero)

/-- A loop on any other cell is its body and then the loop again. -/
theorem again {body : List Char} (opening : holds (.bracket .opening) state)
    (nonzero : state.tape.cell ≠ 0) (round : Traverses holds body state steps events middle)
    (closing : holds (.bracket .closing) middle)
    (onward : Traverses holds ('[' :: (body ++ [']'])) middle later logged final) :
    Traverses holds ('[' :: (body ++ [']'])) state (1 + (steps + (1 + later)))
      (fun place => events (place + 1) ++ logged place) final := by
  obtain ⟨block, rfl, through⟩ := round
  obtain ⟨loop, sameCode, back⟩ := onward
  obtain rfl : loop = .loop block .done := Block.code_injective sameCode
  refine ⟨.loop block .done, rfl, ?_⟩
  intro program place carries
  obtain ⟨entry, carriesBody, exit, -⟩ := Program.carries_loop_iff.mp carries
  have enter := Machine.path_of_step entry opening (Machine.step_of_nonzero entry nonzero)
  have inside := through program (place + 1) carriesBody
  rw [show place + 1 + block.size = place + block.size + 1 by omega] at inside
  have turn := Machine.path_of_step exit closing (Machine.step_of_loopEnd exit)
  exact enter.trans (inside.trans (turn.trans (back program place carries)))

/-- A loop that goes through a series of states, as many rounds as are left, and
stops at the state with none left. -/
theorem rounds {body : List Char} (balanced : Balanced body) {states : Nat -> State σ τ}
    {cost count : Nat} (opening : ∀ left, left ≤ count -> holds (.bracket .opening) (states left))
    (closing : ∀ left, left < count -> holds (.bracket .closing) (states left))
    (zero : (states 0).tape.cell = 0)
    (nonzero : ∀ left, left < count -> (states (left + 1)).tape.cell ≠ 0)
    (round : ∀ left, left < count ->
      Traverses holds body (states (left + 1)) cost silence (states left)) :
    Traverses holds ('[' :: (body ++ [']'])) (states count) (count * (cost + 2) + 1)
      (exitEvents (Symbol.ofCode body).length) (states 0) := by
  induction count with
  | zero =>
      rw [Nat.zero_mul]
      exact skip balanced (opening 0 (Nat.le_refl 0)) zero
  | succ count inductionHypothesis =>
      have last : count < count + 1 := Nat.lt_succ_self count
      have fewer := inductionHypothesis
        (fun left atMost => opening left (Nat.le_succ_of_le atMost))
        (fun left less => closing left (Nat.lt_succ_of_lt less))
        (fun left less => nonzero left (Nat.lt_succ_of_lt less))
        (fun left less => round left (Nat.lt_succ_of_lt less))
      have all := again (opening (count + 1) (Nat.le_refl _)) (nonzero count last)
        (round count last) (closing count last) fewer
      refine all.congr ?_ fun _ => rfl
      rw [Nat.succ_mul]
      omega

/-- A code that can be gone through has a program, and running it from its first
place comes to the end of that program. -/
theorem run {code : List Char} {tape : Tape} {source : σ} {sink : τ}
    (traverses : Traverses holds code ⟨tape, source, sink⟩ steps events final) :
    ∃ program, Program.parse code = .ok program ∧
      program.instructions.toList.map Instruction.symbol = Symbol.ofCode code ∧
      (Machine.stepper program).Path (Machine.Meets program holds)
        (Machine.start tape source sink) steps (events 0) ⟨final, program.size⟩ := by
  obtain ⟨block, rfl, through⟩ := traverses
  refine ⟨.ofBlock block, block.parse_code, by simp [Program.ofBlock], ?_⟩
  have path := through (.ofBlock block) 0 (Program.carries_ofBlock block)
  rw [Nat.zero_add] at path
  have size : (Program.ofBlock block).size = block.size := by
    simp [Program.size, Program.ofBlock]
  rw [size]
  exact path

end Traverses

end Brainfuck
