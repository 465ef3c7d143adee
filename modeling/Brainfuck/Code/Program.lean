import Brainfuck.Code.Block
import Brainfuck.Code.Validation
import Brainfuck.Event

/-!
# Programs

A program has one instruction for each symbol of a code, and the two brackets of
a loop name each other's places. It is compiled in one pass over the characters
that keeps the places of the brackets which are still open. `Block.layout` says
what comes of a block without any such memory, and `Compilation.foldl_take_code`
says that the pass over the code of a block writes just that.
-/

namespace Brainfuck

/-- One step of a program. A loop's brackets carry the place of their partner. -/
inductive Instruction where
  | command (action : Command)
  | loopBegin (partner : Nat)
  | loopEnd (partner : Nat)
  deriving DecidableEq, Repr

namespace Instruction

/-- The symbol that an instruction stands for. -/
def symbol : Instruction -> Symbol
  | .command action => .command action
  | .loopBegin _ => .bracket .opening
  | .loopEnd _ => .bracket .closing

/-- Whether an instruction ends a loop. -/
def isLoopEnd : Instruction -> Bool
  | .loopEnd _ => true
  | _ => false

end Instruction

namespace Block

/-- The instructions of a block whose first one stands at `start`. -/
def layout : Block -> Nat -> List Instruction
  | .done, _ => []
  | .comment _ _ rest, start => rest.layout start
  | .command action rest, start => .command action :: rest.layout (start + 1)
  | .loop body rest, start =>
      .loopBegin (start + body.size + 1) ::
        (body.layout (start + 1) ++
          .loopEnd start :: rest.layout (start + body.size + 2))

/-- A block has one instruction for each symbol. -/
@[simp] theorem length_layout (block : Block) (start : Nat) :
    (block.layout start).length = block.size := by
  induction block generalizing start with
  | done => rfl
  | comment character meaningless rest inductionHypothesis =>
      simp [layout, size, inductionHypothesis]
  | command action rest inductionHypothesis => simp [layout, size, inductionHypothesis]
  | loop body rest bodyHypothesis restHypothesis =>
      simp [layout, size, bodyHypothesis, restHypothesis]
      omega

/-- Behind a block, the next one starts where that block ends. -/
theorem layout_append (block next : Block) (start : Nat) :
    (block.append next).layout start =
      block.layout start ++ next.layout (start + block.size) := by
  induction block generalizing start with
  | done => rfl
  | comment character meaningless rest inductionHypothesis =>
      simp [append, layout, size, inductionHypothesis]
  | command action rest inductionHypothesis =>
      have places : start + 1 + rest.size = start + (rest.size + 1) := by omega
      simp [append, layout, size, inductionHypothesis, places]
  | loop body rest _ restHypothesis =>
      have places : start + body.size + 2 + rest.size =
          start + (body.size + rest.size + 2) := by omega
      simp [append, layout, size, restHypothesis, places]

/-- Each instruction stands for the symbol at its place. -/
@[simp] theorem map_symbol_layout (block : Block) (start : Nat) :
    (block.layout start).map Instruction.symbol = Symbol.ofCode block.code := by
  induction block generalizing start with
  | done => rfl
  | comment character meaningless rest inductionHypothesis =>
      simp [layout, code, meaningless, inductionHypothesis]
  | command action rest inductionHypothesis =>
      simp [layout, code, Instruction.symbol, inductionHypothesis]
  | loop body rest bodyHypothesis restHypothesis =>
      simp [layout, code, Instruction.symbol, bodyHypothesis, restHypothesis]

end Block

/-- What has been compiled so far: the instructions that are written, and the
places of the opening brackets that wait for their partners, the innermost
first. -/
structure Compilation where
  written : Array Instruction
  waiting : List Nat

namespace Compilation

/-- Nothing has been compiled. -/
def empty : Compilation where
  written := #[]
  waiting := []

/-- Takes in the next character. A comment leaves no instruction. An opening
bracket is written for its own place first and for the place of its partner once
the partner is there; a closing bracket that nothing waits for is written for
its own place. -/
def take (compilation : Compilation) (character : Char) : Compilation :=
  match Symbol.ofChar? character, compilation with
  | none, ⟨written, waiting⟩ => ⟨written, waiting⟩
  | some (.command action), ⟨written, waiting⟩ => ⟨written.push (.command action), waiting⟩
  | some (.bracket .opening), ⟨written, waiting⟩ =>
      ⟨written.push (.loopBegin written.size), written.size :: waiting⟩
  | some (.bracket .closing), ⟨written, opening :: outer⟩ =>
      let closing := written.size
      ⟨(written.setIfInBounds opening (.loopBegin closing)).push (.loopEnd opening), outer⟩
  | some (.bracket .closing), ⟨written, []⟩ => ⟨written.push (.loopEnd written.size), []⟩

@[simp] theorem take_comment {character : Char} (meaningless : Symbol.ofChar? character = none)
    (compilation : Compilation) : compilation.take character = compilation := by
  simp [take, meaningless]

@[simp] theorem take_command (action : Command) (compilation : Compilation) :
    compilation.take action.toChar =
      ⟨compilation.written.push (.command action), compilation.waiting⟩ := by
  simp [take]

@[simp] theorem take_opening (compilation : Compilation) :
    compilation.take '[' =
      ⟨compilation.written.push (.loopBegin compilation.written.size),
        compilation.written.size :: compilation.waiting⟩ := rfl

@[simp] theorem take_closing (written : Array Instruction) (opening : Nat) (outer : List Nat) :
    take ⟨written, opening :: outer⟩ ']' =
      ⟨(written.setIfInBounds opening (.loopBegin written.size)).push (.loopEnd opening),
        outer⟩ := rfl

/-- The partner of an opening bracket is written over the bracket's own place,
whatever has been written behind it. -/
theorem setIfInBounds_placeholder (written : Array Instruction) (behind : List Instruction)
    (placeholder resolved : Instruction) :
    (written.push placeholder ++ behind.toArray).setIfInBounds written.size resolved =
      written ++ (resolved :: behind).toArray := by
  apply Array.ext'
  simp

/-- Compiling the code of a block writes the layout of that block behind what is
written and leaves nothing waiting that was not waiting before. -/
theorem foldl_take_code (block : Block) (written : Array Instruction) (waiting : List Nat) :
    block.code.foldl take ⟨written, waiting⟩ =
      ⟨written ++ (block.layout written.size).toArray, waiting⟩ := by
  induction block generalizing written waiting with
  | done => simp [Block.code, Block.layout]
  | comment character meaningless rest inductionHypothesis =>
      simp [Block.code, Block.layout, meaningless, inductionHypothesis]
  | command action rest inductionHypothesis =>
      simp [Block.code, Block.layout, inductionHypothesis]
  | loop body rest bodyHypothesis restHypothesis =>
      have sizeBody : (written.push (.loopBegin written.size) ++
          (body.layout (written.size + 1)).toArray).size = written.size + body.size + 1 := by
        simp
        omega
      have sizeLoop : ((written ++ (Instruction.loopBegin (written.size + body.size + 1) ::
          body.layout (written.size + 1)).toArray).push (.loopEnd written.size)).size =
            written.size + body.size + 2 := by
        simp
        omega
      simp only [Block.code, Block.layout, List.foldl_cons, List.foldl_append, take_opening,
        bodyHypothesis, Array.size_push, take_closing, sizeBody, setIfInBounds_placeholder,
        restHypothesis, sizeLoop]
      simp [Array.append_assoc]

end Compilation

/-- The instructions that a machine steps through. -/
structure Program where
  instructions : Array Instruction
  deriving DecidableEq, Repr

namespace Program

/-- The program of a block. -/
def ofBlock (block : Block) : Program where
  instructions := (block.layout 0).toArray

/-- Compiles a code in one pass. -/
def compile (code : List Char) : Program where
  instructions := (code.foldl Compilation.take Compilation.empty).written

/-- Validates a code and compiles it; comments leave no instruction. -/
def parse (code : List Char) : Except Fault Program :=
  match validate code with
  | .error fault => .error fault
  | .ok () => .ok (compile code)

/-- The number of instructions. -/
def size (program : Program) : Nat :=
  program.instructions.size

/-- Whether there is no instruction at all. -/
def isEmpty (program : Program) : Bool :=
  program.instructions.isEmpty

/-- The instruction at a place, if the program reaches that far. -/
def get? (program : Program) (place : Nat) : Option Instruction :=
  program.instructions[place]?

/-- The number of loops. -/
def loopCount (program : Program) : Nat :=
  program.instructions.countP Instruction.isLoopEnd

/-- What is logged once a code has been compiled to this program. -/
def compiled (program : Program) : Event :=
  .compiled program.size program.loopCount

/-- Compiling the code of a block lays out that block. -/
@[simp] theorem compile_code (block : Block) : compile block.code = ofBlock block := by
  simp [compile, ofBlock, Compilation.empty, Compilation.foldl_take_code]

/-- A code has a program exactly when it is valid, and then that is what it is
compiled to. -/
theorem parse_eq_ok_iff {code : List Char} {program : Program} :
    parse code = .ok program ↔ validate code = .ok () ∧ program = compile code := by
  unfold parse
  cases validate code with
  | ok => simp [eq_comm]
  | error fault => simp

/-- A code without a program is refused with the fault that validation finds. -/
theorem parse_eq_error_iff {code : List Char} {fault : Fault} :
    parse code = .error fault ↔ validate code = .error fault := by
  unfold parse
  cases validate code with
  | ok => simp
  | error found => simp

end Program

end Brainfuck
