import Brainfuck.Code.Program
import Brainfuck.Proofs.Code.Balance

/-!
# The tree of a balanced code

Balanced codes and blocks are the same thing: every block is written by a
balanced code, every balanced code writes one block, and reading the code finds
it. The program of such a code is the layout of its block.
-/

namespace Brainfuck

/-- A character that is no bracket is a command or a comment. -/
theorem Symbol.command_or_comment {character : Char} (notOpening : character ≠ '[')
    (notClosing : character ≠ ']') :
    (∃ action : Command, character = action.toChar) ∨ Symbol.ofChar? character = none := by
  cases read : Symbol.ofChar? character with
  | none => exact .inr rfl
  | some symbol =>
      obtain rfl := Symbol.ofChar?_eq_some_iff.mp read
      cases symbol with
      | command action => exact .inl ⟨action, rfl⟩
      | bracket side =>
          cases side with
          | opening => exact absurd rfl notOpening
          | closing => exact absurd rfl notClosing

namespace Block

/-- The code of a block is balanced. -/
theorem balanced_code (block : Block) : Balanced block.code := by
  induction block with
  | done => exact .empty
  | comment character meaningless rest inductionHypothesis =>
      have noBracket := Symbol.bracket_eq_none meaningless
      obtain ⟨notOpening, notClosing⟩ := Bracket.ofChar?_eq_none_iff.mp noBracket
      exact .other notOpening notClosing inductionHypothesis
  | command action rest inductionHypothesis =>
      have notOpening : action.toChar ≠ '[' := by cases action <;> decide
      have notClosing : action.toChar ≠ ']' := by cases action <;> decide
      exact .other notOpening notClosing inductionHypothesis
  | loop body rest bodyHypothesis restHypothesis => exact .loop bodyHypothesis restHypothesis

/-- A code writes at most one block. -/
theorem code_injective : Function.Injective code := by
  intro left right same
  rw [← ofCode_code left, same, ofCode_code]

/-- The code of a block is compiled to the program of that block. -/
theorem parse_code (block : Block) : Program.parse block.code = .ok (Program.ofBlock block) := by
  rw [Program.parse_eq_ok_iff, Program.compile_code]
  exact ⟨block.balanced_code.validate_eq_ok, rfl⟩

end Block

/-- Every balanced code writes a block. -/
theorem Balanced.exists_block {code : List Char} (balanced : Balanced code) :
    ∃ block : Block, block.code = code := by
  induction balanced with
  | empty => exact ⟨.done, rfl⟩
  | other notOpening notClosing _ inductionHypothesis =>
      obtain ⟨rest, rfl⟩ := inductionHypothesis
      rcases Symbol.command_or_comment notOpening notClosing with ⟨action, rfl⟩ | meaningless
      · exact ⟨.command action rest, rfl⟩
      · exact ⟨.comment _ meaningless rest, rfl⟩
  | loop _ _ bodyHypothesis restHypothesis =>
      obtain ⟨body, rfl⟩ := bodyHypothesis
      obtain ⟨rest, rfl⟩ := restHypothesis
      exact ⟨.loop body rest, rfl⟩

/-- A code that has a program writes a block, and has the program of that block. -/
theorem Program.exists_block_of_parse {code : List Char} {program : Program}
    (parsed : parse code = .ok program) :
    ∃ block : Block, block.code = code ∧ ofBlock block = program := by
  obtain ⟨accepted, -⟩ := parse_eq_ok_iff.mp parsed
  obtain ⟨block, rfl⟩ := (balanced_of_validate accepted).exists_block
  exact ⟨block, rfl, Except.ok.inj (block.parse_code.symm.trans parsed)⟩

end Brainfuck
