import Brainfuck.Code.Symbol

/-!
# Blocks

The tree of a code: comments and commands in sequence, with loops that hold a
block of their own. A block is grown from the right, one character at a time,
keeping the continuations of the loops that are still open on that side.
-/

namespace Brainfuck

/-- A sequence of comments, commands and loops. -/
inductive Block where
  | done
  | comment (character : Char) (meaningless : Symbol.ofChar? character = none) (rest : Block)
  | command (action : Command) (rest : Block)
  | loop (body rest : Block)

namespace Block

/-- The characters that write a block. -/
def code : Block -> List Char
  | .done => []
  | .comment character _ rest => character :: rest.code
  | .command action rest => action.toChar :: rest.code
  | .loop body rest => '[' :: (body.code ++ ']' :: rest.code)

/-- The number of symbols of a block. -/
def size : Block -> Nat
  | .done => 0
  | .comment _ _ rest => rest.size
  | .command _ rest => rest.size + 1
  | .loop body rest => body.size + rest.size + 2

/-- One block after another. -/
def append : Block -> Block -> Block
  | .done, next => next
  | .comment character meaningless rest, next => .comment character meaningless (rest.append next)
  | .command action rest, next => .command action (rest.append next)
  | .loop body rest, next => .loop body (rest.append next)

/-- The growth of a tree from the right: the block that is being read, and what
follows each loop whose opening bracket has not been reached. -/
structure Growth where
  current : Block
  followers : List Block

/-- Takes in the character to the left. A closing bracket starts the body of a
loop, an opening bracket completes it; an opening bracket without a partner
adds nothing. -/
def Growth.extend (character : Char) (growth : Growth) : Growth :=
  match meaning : Symbol.ofChar? character, growth with
  | none, ⟨current, followers⟩ => ⟨.comment character meaning current, followers⟩
  | some (.command action), ⟨current, followers⟩ => ⟨.command action current, followers⟩
  | some (.bracket .closing), ⟨current, followers⟩ => ⟨.done, current :: followers⟩
  | some (.bracket .opening), ⟨body, rest :: followers⟩ => ⟨.loop body rest, followers⟩
  | some (.bracket .opening), ⟨body, []⟩ => ⟨body, []⟩

/-- The block that a code writes, provided that every bracket has its partner. -/
def ofCode (code : List Char) : Block :=
  (code.foldr Growth.extend ⟨.done, []⟩).current

/-- The size of a block is the number of symbols in its code. -/
@[simp] theorem length_ofCode_code (block : Block) :
    (Symbol.ofCode block.code).length = block.size := by
  induction block with
  | done => rfl
  | comment character meaningless rest inductionHypothesis =>
      simp [code, size, meaningless, inductionHypothesis]
  | command action rest inductionHypothesis => simp [code, size, inductionHypothesis]
  | loop body rest bodyHypothesis restHypothesis =>
      simp [code, size, bodyHypothesis, restHypothesis]
      omega

/-- The code of two blocks in a row. -/
@[simp] theorem code_append (block next : Block) :
    (block.append next).code = block.code ++ next.code := by
  induction block with
  | done => rfl
  | comment character meaningless rest inductionHypothesis =>
      simp [append, code, inductionHypothesis]
  | command action rest inductionHypothesis => simp [append, code, inductionHypothesis]
  | loop body rest _ restHypothesis => simp [append, code, restHypothesis]

/-- The size of two blocks in a row. -/
@[simp] theorem size_append (block next : Block) :
    (block.append next).size = block.size + next.size := by
  rw [← length_ofCode_code, code_append, Symbol.ofCode_append, List.length_append,
    length_ofCode_code, length_ofCode_code]

/-- Nothing follows the last block. -/
@[simp] theorem append_done (block : Block) : block.append .done = block := by
  induction block with
  | done => rfl
  | comment character meaningless rest inductionHypothesis => simp [append, inductionHypothesis]
  | command action rest inductionHypothesis => simp [append, inductionHypothesis]
  | loop body rest _ restHypothesis => simp [append, restHypothesis]

namespace Growth

@[simp] theorem extend_comment {character : Char} (meaningless : Symbol.ofChar? character = none)
    (growth : Growth) :
    extend character growth =
      ⟨.comment character meaningless growth.current, growth.followers⟩ := by
  unfold extend
  split <;> simp_all

@[simp] theorem extend_command (action : Command) (growth : Growth) :
    extend action.toChar growth = ⟨.command action growth.current, growth.followers⟩ := by
  cases action <;> rfl

@[simp] theorem extend_closing (growth : Growth) :
    extend ']' growth = ⟨.done, growth.current :: growth.followers⟩ := rfl

@[simp] theorem extend_opening (body rest : Block) (followers : List Block) :
    extend '[' ⟨body, rest :: followers⟩ = ⟨.loop body rest, followers⟩ := rfl

end Growth

/-- Taking in the characters of a block puts that block in front. -/
theorem foldr_extend_code (block : Block) (growth : Growth) :
    block.code.foldr Growth.extend growth =
      ⟨block.append growth.current, growth.followers⟩ := by
  induction block generalizing growth with
  | done => rfl
  | comment character meaningless rest inductionHypothesis =>
      simp [code, append, inductionHypothesis, meaningless]
  | command action rest inductionHypothesis => simp [code, append, inductionHypothesis]
  | loop body rest bodyHypothesis restHypothesis =>
      simp [code, append, bodyHypothesis, restHypothesis]

/-- Writing a block and reading it again gives that block. -/
@[simp] theorem ofCode_code (block : Block) : ofCode block.code = block := by
  simp [ofCode, foldr_extend_code]

end Block

end Brainfuck
