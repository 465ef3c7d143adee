import Brainfuck.Proofs.Code.Tree

/-!
# Codes with other commands

Commands may be exchanged for others without touching the brackets between them. The new
code has the loops of the old one, so its program has the same jumps and other commands in
the same places: `Program.parse_exchanged`.
-/

namespace Brainfuck

variable {exchange : Command -> Command}

/-- What a character becomes where commands are exchanged. -/
def exchangedChar (exchange : Command -> Command) (character : Char) : Char :=
  match Symbol.ofChar? character with
  | some (.command action) => (exchange action).toChar
  | _ => character

/-- A code in which every command is exchanged. -/
def exchanged (exchange : Command -> Command) (code : List Char) : List Char :=
  code.map (exchangedChar exchange)

@[simp] theorem exchangedChar_command (action : Command) :
    exchangedChar exchange action.toChar = (exchange action).toChar := by
  simp [exchangedChar]

/-- A comment stays. -/
theorem exchangedChar_comment {character : Char}
    (meaningless : Symbol.ofChar? character = none) :
    exchangedChar exchange character = character := by
  simp [exchangedChar, meaningless]

@[simp] theorem exchangedChar_opening : exchangedChar exchange '[' = '[' := rfl

@[simp] theorem exchangedChar_closing : exchangedChar exchange ']' = ']' := rfl

/-- An instruction whose command, if it is one, is exchanged. -/
def Instruction.exchanged (exchange : Command -> Command) : Instruction -> Instruction
  | .command action => .command (exchange action)
  | .loopBegin partner => .loopBegin partner
  | .loopEnd partner => .loopEnd partner

namespace Block

/-- A block in which every command is exchanged. -/
def exchanged (exchange : Command -> Command) : Block -> Block
  | .done => .done
  | .comment character meaningless rest => .comment character meaningless (rest.exchanged exchange)
  | .command action rest => .command (exchange action) (rest.exchanged exchange)
  | .loop body rest => .loop (body.exchanged exchange) (rest.exchanged exchange)

/-- Exchanging the commands of a block exchanges those of its code. -/
theorem code_exchanged (block : Block) :
    (block.exchanged exchange).code = Brainfuck.exchanged exchange block.code := by
  unfold Brainfuck.exchanged
  induction block with
  | done => rfl
  | comment character meaningless rest inductionHypothesis =>
      simp [exchanged, code, exchangedChar_comment meaningless, inductionHypothesis]
  | command action rest inductionHypothesis => simp [exchanged, code, inductionHypothesis]
  | loop body rest bodyHypothesis restHypothesis =>
      simp [exchanged, code, bodyHypothesis, restHypothesis]

@[simp] theorem size_exchanged (block : Block) : (block.exchanged exchange).size = block.size := by
  induction block with
  | done => rfl
  | comment character meaningless rest inductionHypothesis => exact inductionHypothesis
  | command action rest inductionHypothesis => simp [exchanged, size, inductionHypothesis]
  | loop body rest bodyHypothesis restHypothesis =>
      simp [exchanged, size, bodyHypothesis, restHypothesis]

/-- The instructions are exchanged as the commands are, and the jumps stay. -/
theorem layout_exchanged (block : Block) (start : Nat) :
    (block.exchanged exchange).layout start =
      (block.layout start).map (Instruction.exchanged exchange) := by
  induction block generalizing start with
  | done => rfl
  | comment character meaningless rest inductionHypothesis => exact inductionHypothesis start
  | command action rest inductionHypothesis =>
      simp [exchanged, layout, Instruction.exchanged, inductionHypothesis]
  | loop body rest bodyHypothesis restHypothesis =>
      simp [exchanged, layout, Instruction.exchanged, bodyHypothesis, restHypothesis]

end Block

namespace Program

/-- A program in which every command is exchanged. -/
def exchanged (exchange : Command -> Command) (program : Program) : Program where
  instructions := program.instructions.map (Instruction.exchanged exchange)

@[simp] theorem size_exchanged (program : Program) :
    (program.exchanged exchange).size = program.size := by
  simp only [size, exchanged, Array.size_map]

/-- What stands at a place is exchanged there. -/
@[simp] theorem get?_exchanged (program : Program) (place : Nat) :
    (program.exchanged exchange).get? place =
      (program.get? place).map (Instruction.exchanged exchange) := by
  simp only [get?, exchanged, Array.getElem?_map]

/-- Nothing changes if every command is exchanged for itself. -/
@[simp] theorem exchanged_id (program : Program) : program.exchanged id = program := by
  have same : Instruction.exchanged id = id := by
    funext instruction
    cases instruction <;> rfl
  simp [exchanged, same]

/-- The exchanged code is compiled to the exchanged program. -/
theorem parse_exchanged {code : List Char} {program : Program}
    (parsed : parse code = .ok program) :
    parse (Brainfuck.exchanged exchange code) = .ok (program.exchanged exchange) := by
  obtain ⟨block, rfl, rfl⟩ := exists_block_of_parse parsed
  rw [← Block.code_exchanged, Block.parse_code, ofBlock, Block.layout_exchanged]
  simp [exchanged, ofBlock]

end Program

end Brainfuck
