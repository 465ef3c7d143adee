import Brainfuck.Proofs.Code.Layout
import Brainfuck.Proofs.Code.Tree
import Brainfuck.Semantics.Scanner

/-!
# Partners

Two brackets are partners if what stands between them is balanced. A scan with a
depth counter passes over everything balanced, in either direction, and so finds
the partner of the bracket that it starts from. The program of a balanced code
names the same partners, counted in symbols instead of characters.
-/

namespace Brainfuck

open Brainfuck.Symbol (countBefore)

/-- An opening and a closing bracket of a code that enclose a balanced code. -/
def Partners (code : List Char) (opening closing : Nat) : Prop :=
  ∃ before body behind, code = before ++ '[' :: (body ++ ']' :: behind) ∧ Balanced body ∧
    opening = before.length ∧ closing = before.length + (body.length + 1)

namespace Partners

variable {code : List Char} {opening closing : Nat}

theorem opening_bracket (partners : Partners code opening closing) :
    code[opening]? = some '[' := by
  obtain ⟨before, body, behind, rfl, -, rfl, rfl⟩ := partners
  simp

theorem closing_bracket (partners : Partners code opening closing) :
    code[closing]? = some ']' := by
  obtain ⟨before, body, behind, rfl, -, rfl, rfl⟩ := partners
  simp

/-- Partners stay partners whatever is written around their code. -/
theorem surround (partners : Partners code opening closing) (before behind : List Char) :
    Partners (before ++ (code ++ behind)) (before.length + opening) (before.length + closing) := by
  obtain ⟨front, body, back, rfl, balanced, rfl, rfl⟩ := partners
  refine ⟨before ++ front, body, back ++ behind, by simp, balanced, by simp, ?_⟩
  rw [List.length_append]
  omega

end Partners

namespace Scanner

theorem distanceToPartner_other {character : Char}
    (noBracket : Bracket.ofChar? character = none) (deeper : Bracket) (depth : Nat)
    (rest : List Char) :
    distanceToPartner deeper depth (character :: rest) =
      (distanceToPartner deeper depth rest).map (· + 1) := by
  simp [distanceToPartner, noBracket]

theorem distanceToPartner_deeper (deeper : Bracket) (depth : Nat) (rest : List Char) :
    distanceToPartner deeper depth (deeper.toChar :: rest) =
      (distanceToPartner deeper (depth + 1) rest).map (· + 1) := by
  simp [distanceToPartner]

theorem distanceToPartner_shallower {side deeper : Bracket} (differs : side ≠ deeper)
    (depth : Nat) (rest : List Char) :
    distanceToPartner deeper (depth + 1) (side.toChar :: rest) =
      (distanceToPartner deeper depth rest).map (· + 1) := by
  simp [distanceToPartner, differs]

theorem distanceToPartner_found {side deeper : Bracket} (differs : side ≠ deeper)
    (rest : List Char) : distanceToPartner deeper 0 (side.toChar :: rest) = some 0 := by
  simp [distanceToPartner, differs]

/-- A scan passes over a piece of code: it comes out at the depth at which it
went in, whatever stands behind. -/
def Passes (deeper : Bracket) (piece : List Char) : Prop :=
  ∀ depth rest, distanceToPartner deeper depth (piece ++ rest) =
    (distanceToPartner deeper depth rest).map (· + piece.length)

theorem passes_nil (deeper : Bracket) : Passes deeper [] := by
  intro depth rest
  simp

/-- A scan passes over two pieces one after the other. -/
theorem Passes.append {deeper : Bracket} {left right : List Char} (passesLeft : Passes deeper left)
    (passesRight : Passes deeper right) : Passes deeper (left ++ right) := by
  intro depth rest
  rw [List.append_assoc, passesLeft, passesRight, Option.map_map]
  congr 1
  funext distance
  simp only [Function.comp, List.length_append]
  omega

/-- A scan passes over a character that is no bracket. -/
theorem passes_other {character : Char} (noBracket : Bracket.ofChar? character = none)
    (deeper : Bracket) : Passes deeper [character] := by
  intro depth rest
  exact distanceToPartner_other noBracket deeper depth rest

/-- A scan passes over a loop whose body it passes over. -/
theorem Passes.enclose {side deeper : Bracket} (differs : side ≠ deeper) {body : List Char}
    (passes : Passes deeper body) :
    Passes deeper (deeper.toChar :: (body ++ [side.toChar])) := by
  intro depth rest
  have inside := passes (depth + 1) (side.toChar :: rest)
  rw [List.cons_append, List.append_assoc, List.singleton_append, distanceToPartner_deeper, inside,
    distanceToPartner_shallower differs, Option.map_map, Option.map_map]
  congr 1
  funext distance
  simp only [Function.comp, List.length_cons, List.length_append, List.length_nil]
  omega

/-- A forward scan passes over a balanced code. -/
theorem passes_of_balanced {body : List Char} (balanced : Balanced body) :
    Passes .opening body := by
  induction balanced with
  | empty => exact passes_nil .opening
  | other notOpening notClosing _ inductionHypothesis =>
      have noBracket := Bracket.ofChar?_eq_none_iff.mpr ⟨notOpening, notClosing⟩
      exact (passes_other noBracket .opening).append inductionHypothesis
  | loop _ _ bodyHypothesis restHypothesis =>
      have loop := bodyHypothesis.enclose (by decide : Bracket.closing ≠ .opening)
      simpa [Bracket.toChar] using loop.append restHypothesis

/-- A backward scan passes over a balanced code. -/
theorem passes_reverse_of_balanced {body : List Char} (balanced : Balanced body) :
    Passes .closing body.reverse := by
  induction balanced with
  | empty => exact passes_nil .closing
  | other notOpening notClosing _ inductionHypothesis =>
      have noBracket := Bracket.ofChar?_eq_none_iff.mpr ⟨notOpening, notClosing⟩
      simpa using inductionHypothesis.append (passes_other noBracket .closing)
  | loop _ _ bodyHypothesis restHypothesis =>
      have loop := bodyHypothesis.enclose (by decide : Bracket.opening ≠ .closing)
      simpa [Bracket.toChar] using restHypothesis.append loop

/-- The forward scan from an opening bracket finds its partner. -/
theorem closingPartner?_of_partners {code : List Char} {opening closing : Nat}
    (partners : Partners code opening closing) : closingPartner? code opening = some closing := by
  obtain ⟨before, body, behind, rfl, balanced, rfl, rfl⟩ := partners
  have behindOpening : (before ++ '[' :: (body ++ ']' :: behind)).drop (before.length + 1) =
      body ++ ']' :: behind := by
    simp [List.drop_append]
  have found : distanceToPartner .opening 0 (']' :: behind) = some 0 :=
    distanceToPartner_found (by decide : Bracket.closing ≠ .opening) behind
  rw [closingPartner?, behindOpening, passes_of_balanced balanced, found]
  simp
  omega

/-- The backward scan from a closing bracket finds its partner. -/
theorem openingPartner?_of_partners {code : List Char} {opening closing : Nat}
    (partners : Partners code opening closing) : openingPartner? code closing = some opening := by
  obtain ⟨before, body, behind, rfl, balanced, rfl, rfl⟩ := partners
  have beforeClosing : ((before ++ '[' :: (body ++ ']' :: behind)).take
      (before.length + (body.length + 1))).reverse = body.reverse ++ '[' :: before.reverse := by
    have split : before ++ '[' :: (body ++ ']' :: behind) =
        (before ++ '[' :: body) ++ ']' :: behind := by simp
    rw [split, List.take_left' (by simp)]
    simp
  have found : distanceToPartner .closing 0 ('[' :: before.reverse) = some 0 :=
    distanceToPartner_found (by decide : Bracket.opening ≠ .closing) before.reverse
  rw [openingPartner?, beforeClosing, passes_reverse_of_balanced balanced, found]
  simp

end Scanner

/-- What the instruction of a character is, in a program where the first
instruction of the code stands at `start`: brackets name the places of their
partners, which are counted in symbols. -/
inductive Renders (code : List Char) (start index : Nat) : Instruction -> Prop where
  | command {action : Command} (here : code[index]? = some action.toChar) :
      Renders code start index (.command action)
  | opening {closing : Nat} (partners : Partners code index closing) :
      Renders code start index (.loopBegin (start + countBefore code closing))
  | closing {opening : Nat} (partners : Partners code opening index) :
      Renders code start index (.loopEnd (start + countBefore code opening))

/-- The instruction of a character stands at its place in a program. -/
def Program.RendersAt (program : Program) (code : List Char) (start index : Nat) : Prop :=
  ∃ instruction, program.get? (start + countBefore code index) = some instruction ∧
    Renders code start index instruction

theorem Renders.lt_length {code : List Char} {start index : Nat} {instruction : Instruction}
    (renders : Renders code start index instruction) : index < code.length := by
  cases renders with
  | command here => exact (List.getElem?_eq_some_iff.mp here).1
  | opening partners => exact (List.getElem?_eq_some_iff.mp partners.opening_bracket).1
  | closing partners => exact (List.getElem?_eq_some_iff.mp partners.closing_bracket).1

/-- Code in front counts, code behind does not. -/
theorem countBefore_surround (before behind : List Char) {code : List Char} {index : Nat}
    (inside : index < code.length) :
    countBefore (before ++ (code ++ behind)) (before.length + index) =
      (Symbol.ofCode before).length + countBefore code index := by
  rw [Symbol.countBefore_append, Symbol.countBefore_append_of_le (Nat.le_of_lt inside)]

/-- The instruction of a character stays what it is if more code is written
around it. -/
theorem Renders.surround {code : List Char} {start index : Nat} {instruction : Instruction}
    (before behind : List Char)
    (renders : Renders code (start + (Symbol.ofCode before).length) index instruction) :
    Renders (before ++ (code ++ behind)) start (before.length + index) instruction := by
  cases renders with
  | command here =>
      have inside := (List.getElem?_eq_some_iff.mp here).1
      refine .command ?_
      rw [List.getElem?_append_right (by omega), Nat.add_sub_cancel_left,
        List.getElem?_append_left inside, here]
  | opening partners =>
      have inside := (List.getElem?_eq_some_iff.mp partners.closing_bracket).1
      have moved := partners.surround before behind
      rw [Nat.add_assoc, ← countBefore_surround before behind inside]
      exact .opening moved
  | closing partners =>
      have inside := (List.getElem?_eq_some_iff.mp partners.opening_bracket).1
      have moved := partners.surround before behind
      rw [Nat.add_assoc, ← countBefore_surround before behind inside]
      exact .closing moved

/-- The place of an instruction is the same if it is counted in more code. -/
theorem Program.RendersAt.surround {program : Program} {code : List Char} {start index : Nat}
    (before behind : List Char)
    (rendersAt : program.RendersAt code (start + (Symbol.ofCode before).length) index) :
    program.RendersAt (before ++ (code ++ behind)) start (before.length + index) := by
  obtain ⟨instruction, stands, renders⟩ := rendersAt
  refine ⟨instruction, ?_, renders.surround before behind⟩
  rw [countBefore_surround before behind renders.lt_length, ← Nat.add_assoc]
  exact stands

namespace Program.RendersAt

variable {program : Program} {body rest : Block} {start index : Nat}

/-- What follows a comment is one character further on, at the same place. -/
theorem behind_comment {character : Char} {meaningless : Symbol.ofChar? character = none}
    (rendersAt : program.RendersAt rest.code start index) :
    program.RendersAt (Block.comment character meaningless rest).code start (index + 1) := by
  have moved := RendersAt.surround [character] [] (by simpa [meaningless] using rendersAt)
  simpa [Block.code, Nat.add_comm] using moved

/-- What follows a command is one character and one place further on. -/
theorem behind_command {action : Command}
    (rendersAt : program.RendersAt rest.code (start + 1) index) :
    program.RendersAt (Block.command action rest).code start (index + 1) := by
  have moved := RendersAt.surround [action.toChar] [] (by simpa using rendersAt)
  simpa [Block.code, Nat.add_comm] using moved

/-- The body of a loop is one character and one place further on. -/
theorem inside_loop (rendersAt : program.RendersAt body.code (start + 1) index) :
    program.RendersAt (Block.loop body rest).code start (index + 1) := by
  have moved := RendersAt.surround ['['] (']' :: rest.code) (by simpa using rendersAt)
  simpa [Block.code, Nat.add_comm] using moved

/-- What follows a loop is behind all of its characters and places. -/
theorem behind_loop (rendersAt : program.RendersAt rest.code (start + body.size + 2) index) :
    program.RendersAt (Block.loop body rest).code start (body.code.length + 2 + index) := by
  have moved := RendersAt.surround ('[' :: (body.code ++ [']'])) []
    (by simpa [← Nat.add_assoc] using rendersAt)
  simpa [Block.code] using moved

/-- The brackets of a loop name each other. -/
theorem brackets (carries : program.Carries start (.loop body rest)) :
    program.RendersAt (Block.loop body rest).code start 0 ∧
      program.RendersAt (Block.loop body rest).code start (body.code.length + 1) := by
  obtain ⟨first, -, last, -⟩ := Program.carries_loop_iff.mp carries
  have partners : Partners (Block.loop body rest).code 0 (body.code.length + 1) :=
    ⟨[], body.code, rest.code, rfl, body.balanced_code, rfl, by simp⟩
  have counted : countBefore (Block.loop body rest).code (body.code.length + 1) =
      body.size + 1 := by
    simp [countBefore, Block.code]
  constructor
  · refine ⟨_, first, ?_⟩
    rw [Nat.add_assoc, ← counted]
    exact .opening partners
  · refine ⟨.loopEnd start, ?_, .closing partners⟩
    rw [counted, ← Nat.add_assoc]
    exact last

end Program.RendersAt

open Program.RendersAt in
/-- Where a program carries a block, each character with a meaning has its
instruction. -/
theorem Program.Carries.rendersAt {program : Program} {block : Block} {start index : Nat}
    {character : Char} {symbol : Symbol} (carries : program.Carries start block)
    (here : block.code[index]? = some character) (means : Symbol.ofChar? character = some symbol) :
    program.RendersAt block.code start index := by
  induction block generalizing start index with
  | done => simp [Block.code] at here
  | comment comment meaningless rest inductionHypothesis =>
      cases index with
      | zero =>
          obtain rfl : comment = character := by simpa [Block.code] using here
          simp [meaningless] at means
      | succ index => exact behind_comment (inductionHypothesis carries here)
  | command action rest inductionHypothesis =>
      obtain ⟨first, carriesRest⟩ := Program.carries_command_iff.mp carries
      cases index with
      | zero => exact ⟨.command action, by simpa using first, .command rfl⟩
      | succ index => exact behind_command (inductionHypothesis carriesRest here)
  | loop body rest bodyHypothesis restHypothesis =>
      obtain ⟨-, carriesBody, -, carriesRest⟩ := Program.carries_loop_iff.mp carries
      cases index with
      | zero => exact (brackets carries).1
      | succ index =>
          rcases Nat.lt_trichotomy index body.code.length with inside | rfl | behind
          · have inBody : body.code[index]? = some character := by
              simpa [Block.code, List.getElem?_append_left inside] using here
            exact inside_loop (bodyHypothesis carriesBody inBody)
          · exact (brackets carries).2
          · obtain ⟨offset, rfl⟩ : ∃ offset, index = body.code.length + 1 + offset :=
              ⟨index - (body.code.length + 1), by omega⟩
            have place : body.code.length + 1 + offset + 1 = body.code.length + 2 + offset := by
              omega
            have split : (Block.loop body rest).code =
                ('[' :: (body.code ++ [']'])) ++ rest.code := by
              simp [Block.code]
            rw [place] at here ⊢
            have inRest : rest.code[offset]? = some character := by
              rw [split, List.getElem?_append_right (by simp)] at here
              simpa using here
            exact behind_loop (restHypothesis carriesRest inRest)

end Brainfuck
