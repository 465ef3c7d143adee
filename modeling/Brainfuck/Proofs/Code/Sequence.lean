import Brainfuck.Proofs.Code.JumpTable

/-!
# Codes in a row

A balanced code leaves no bracket waiting, so the code behind it is compiled as if
it stood alone, with every jump `shift`ed by what stands in front:
`Program.parse_append_of_balanced`. A program is `Closed` if none of its jumps leads
out of it. This is so for every code that has a program, and it is what keeps a
machine in the half where it is.
-/

namespace Brainfuck

/-- The same instruction of a program that has been put behind so many others. -/
def Instruction.shift (offset : Nat) : Instruction -> Instruction
  | .command action => .command action
  | .loopBegin partner => .loopBegin (offset + partner)
  | .loopEnd partner => .loopEnd (offset + partner)

/-- A block that stands further on has the same instructions, shifted. -/
theorem Block.layout_add (block : Block) (offset start : Nat) :
    block.layout (offset + start) = (block.layout start).map (Instruction.shift offset) := by
  induction block generalizing start with
  | done => rfl
  | comment character meaningless rest inductionHypothesis => exact inductionHypothesis start
  | command action rest inductionHypothesis =>
      simp [layout, Instruction.shift, Nat.add_assoc, inductionHypothesis]
  | loop body rest bodyHypothesis restHypothesis =>
      simp [layout, Instruction.shift, Nat.add_assoc, bodyHypothesis, restHypothesis]

namespace Program

/-- A program and another one behind it, whose jumps are shifted by the size of the
first. -/
def andThen (first second : Program) : Program where
  instructions :=
    first.instructions ++ second.instructions.map (Instruction.shift first.size)

/-- The program of a block and another one is that of the first and then that of
the other. -/
theorem ofBlock_append (block next : Block) :
    ofBlock (block.append next) = (ofBlock block).andThen (ofBlock next) := by
  have shifted := next.layout_add block.size 0
  simp only [Nat.add_zero] at shifted
  simp [ofBlock, andThen, size, Block.layout_append, shifted]

/-- Two balanced codes in a row are compiled to the program of the first and then
that of the second. -/
theorem parse_append_of_balanced {left right : List Char} (balancedLeft : Balanced left)
    (balancedRight : Balanced right) :
    ∃ first second, parse left = .ok first ∧ parse right = .ok second ∧
      parse (left ++ right) = .ok (first.andThen second) := by
  obtain ⟨block, rfl⟩ := balancedLeft.exists_block
  obtain ⟨next, rfl⟩ := balancedRight.exists_block
  refine ⟨ofBlock block, ofBlock next, block.parse_code, next.parse_code, ?_⟩
  rw [← Block.code_append, Block.parse_code, ofBlock_append]

variable {first second : Program}

/-- No instruction is lost or added. -/
theorem size_andThen : (first.andThen second).size = first.size + second.size := by
  simp only [size, andThen, Array.size_append, Array.size_map]

/-- In the first half stand the instructions of the first program. -/
theorem get?_andThen_of_lt {place : Nat} (inside : place < first.size) :
    (first.andThen second).get? place = first.get? place := by
  simp only [get?, andThen]
  exact Array.getElem?_append_left inside

/-- Behind the first half stand the instructions of the second program, shifted. -/
theorem get?_andThen_add (place : Nat) :
    (first.andThen second).get? (first.size + place) =
      (second.get? place).map (Instruction.shift first.size) := by
  simp only [get?, andThen, size]
  rw [Array.getElem?_append_right (Nat.le_add_right _ _), Nat.add_sub_cancel_left,
    Array.getElem?_map]

/-- A place at which an instruction stands is within the program. -/
theorem lt_size_of_get? {program : Program} {place : Nat} {instruction : Instruction}
    (here : program.get? place = some instruction) : place < program.size := by
  obtain ⟨inside, -⟩ := Array.getElem?_eq_some_iff.mp here
  exact inside

/-- Every jump of a program leads to an instruction, or behind one. -/
structure Closed (program : Program) : Prop where
  opening : ∀ place partner, program.get? place = some (.loopBegin partner) ->
    partner < program.size
  closing : ∀ place partner, program.get? place = some (.loopEnd partner) ->
    partner < program.size

/-- A program whose brackets name each other is closed. -/
theorem Resolves.closed {program : Program} {symbols : List Symbol}
    (resolves : program.Resolves symbols) : program.Closed where
  opening place partner here := (resolves.opening place partner here).2.1
  closing place partner here :=
    Nat.lt_trans (resolves.closing place partner here).1 (lt_size_of_get? here)

/-- The brackets of the program of a code name each other. -/
theorem resolves_of_parse {code : List Char} {program : Program}
    (parsed : parse code = .ok program) : program.Resolves (Symbol.ofCode code) := by
  obtain ⟨block, rfl, rfl⟩ := exists_block_of_parse parsed
  exact resolves_ofBlock block

/-- The program of a code is closed. -/
theorem closed_of_parse {code : List Char} {program : Program}
    (parsed : parse code = .ok program) : program.Closed :=
  (resolves_of_parse parsed).closed

end Program

end Brainfuck
