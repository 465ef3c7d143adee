import Brainfuck.Code.Program

/-!
# Layouts inside of programs

A program `Carries` a block at a place if the instructions from there on are the
layout of that block. What a machine does inside of a block follows from this
alone, whatever stands before and behind; `Program.carries_loop_iff` is the case
that says where the two brackets of a loop lead.
-/

namespace Brainfuck.Program

/-- The instructions of a program from a place on begin with these. -/
def Continues (program : Program) : Nat -> List Instruction -> Prop
  | _, [] => True
  | place, instruction :: rest =>
      program.get? place = some instruction ∧ program.Continues (place + 1) rest

/-- The layout of a block stands in a program from a place on. -/
def Carries (program : Program) (place : Nat) (block : Block) : Prop :=
  program.Continues place (block.layout place)

variable {program : Program}

/-- Instructions that stand in a row stand in two rows, one behind the other. -/
theorem continues_append_iff {place : Nat} {left right : List Instruction} :
    program.Continues place (left ++ right) ↔
      program.Continues place left ∧ program.Continues (place + left.length) right := by
  induction left generalizing place with
  | nil => simp [Continues]
  | cons instruction rest inductionHypothesis =>
      have places : place + 1 + rest.length = place + (rest.length + 1) := by omega
      simp [Continues, inductionHypothesis, and_assoc, places]

/-- A list of instructions continues in itself from each of its places on. -/
theorem continues_toArray (before rest : List Instruction) :
    Continues ⟨(before ++ rest).toArray⟩ before.length rest := by
  induction rest generalizing before with
  | nil => trivial
  | cons instruction rest inductionHypothesis =>
      constructor
      · simp [get?]
      · simpa using inductionHypothesis (before ++ [instruction])

/-- The program of a block carries that block from its first place on. -/
theorem carries_ofBlock (block : Block) : (ofBlock block).Carries 0 block :=
  continues_toArray [] (block.layout 0)

/-- Two blocks in a row stand one behind the other. -/
theorem carries_append_iff {place : Nat} {block next : Block} :
    program.Carries place (block.append next) ↔
      program.Carries place block ∧ program.Carries (place + block.size) next := by
  simp [Carries, Block.layout_append, continues_append_iff]

/-- A command stands at the first place and the rest behind it. -/
@[simp] theorem carries_command_iff {place : Nat} {action : Command} {rest : Block} :
    program.Carries place (.command action rest) ↔
      program.get? place = some (.command action) ∧ program.Carries (place + 1) rest :=
  Iff.rfl

/-- A loop stands between its two brackets, which name each other's places, and
the rest behind them. -/
@[simp] theorem carries_loop_iff {place : Nat} {body rest : Block} :
    program.Carries place (.loop body rest) ↔
      program.get? place = some (.loopBegin (place + body.size + 1)) ∧
        program.Carries (place + 1) body ∧
        program.get? (place + body.size + 1) = some (.loopEnd place) ∧
        program.Carries (place + body.size + 2) rest := by
  have behindBody : place + 1 + body.size = place + body.size + 1 := by omega
  simp [Carries, Block.layout, Continues, continues_append_iff, behindBody]

end Brainfuck.Program
