import Brainfuck.Proofs.Code.JumpTable
import Brainfuck.Proofs.Code.Localisation

/-!
# Leaving out a loop

A seam is a place at which a program begins, or behind which a loop has been left:
before the first instruction, or directly behind a closing bracket. `Block.Omits` relates a
block to what is left of it without a loop that begins at a seam. Cutting the characters of
such a loop out of a balanced code is the same thing (`Block.exists_omits`), because
partners in a code are unique: whatever balanced body is cut out with its two brackets, it
is the body of a loop of the tree.
-/

namespace Brainfuck

namespace Symbol

/-- Whether what stands behind these symbols begins at a seam: a loop ends with them, or
there are none and they stand at a seam themselves. -/
def atSeam (initially : Bool) (symbols : List Symbol) : Bool :=
  symbols.foldl (fun _ symbol => symbol == .bracket .closing) initially

@[simp] theorem atSeam_nil (initially : Bool) : atSeam initially [] = initially := rfl

/-- From the first symbol on it does not matter what was there before. -/
@[simp] theorem atSeam_cons (initially : Bool) (symbol : Symbol) (rest : List Symbol) :
    atSeam initially (symbol :: rest) = atSeam (symbol == .bracket .closing) rest := rfl

/-- Symbols in two rows. -/
@[simp] theorem atSeam_append (initially : Bool) (left right : List Symbol) :
    atSeam initially (left ++ right) = atSeam (atSeam initially left) right :=
  List.foldl_append

end Symbol

namespace Block

/-- One block is another one without a loop that begins at a seam; whether the block itself
does is given. -/
inductive Omits : Bool -> Block -> Block -> Prop where
  | loop {body rest : Block} : Omits true (.loop body rest) rest
  | comment {seam : Bool} {character : Char} {meaningless : Symbol.ofChar? character = none}
      {rest shorter : Block} (omitsRest : Omits seam rest shorter) :
      Omits seam (.comment character meaningless rest) (.comment character meaningless shorter)
  | command {seam : Bool} {action : Command} {rest shorter : Block}
      (omitsRest : Omits false rest shorter) :
      Omits seam (.command action rest) (.command action shorter)
  | inside {seam : Bool} {body shorter rest : Block} (omitsBody : Omits false body shorter) :
      Omits seam (.loop body rest) (.loop shorter rest)
  | behind {seam : Bool} {body rest shorter : Block} (omitsRest : Omits true rest shorter) :
      Omits seam (.loop body rest) (.loop body shorter)

end Block

namespace Balanced

variable {before tail body behind outer : List Char}

/-- What stands behind an opening bracket of a balanced code closes more than it opens, so it
is no front part of a balanced code. -/
theorem not_balanced_behind_opening (balanced : Balanced (before ++ '[' :: tail))
    (more : List Char) : ¬ Balanced (tail ++ more) := by
  intro balancedTail
  have front := balanced.not_overcloses_take before.length
  have back := balancedTail.not_overcloses_take tail.length
  have even := balanced.count_brackets
  simp [Overcloses] at front back even
  omega

/-- The closing bracket behind a balanced code is the first that closes too much. -/
theorem append_closing_inj (balanced : Balanced body) (balancedTail : Balanced tail)
    (same : body ++ ']' :: behind = tail ++ ']' :: outer) : body = tail ∧ behind = outer := by
  have found (rest : List Char) : Scanner.distanceToPartner .opening 0 (']' :: rest) = some 0 :=
    Scanner.distanceToPartner_found (by decide : Bracket.closing ≠ .opening) rest
  have first := Scanner.passes_of_balanced balanced 0 (']' :: behind)
  have second := Scanner.passes_of_balanced balancedTail 0 (']' :: outer)
  rw [same, second, found, found] at first
  have length : tail.length = body.length := by simpa using first
  obtain ⟨sameBody, sameBehind⟩ := List.append_inj same length.symm
  exact ⟨sameBody, (List.cons.inj sameBehind).2⟩

/-- A loop that opens in a balanced code ends there, whatever closing bracket follows. -/
theorem loop_ends_inside (balanced : Balanced (before ++ '[' :: tail))
    (balancedBody : Balanced body) (same : tail ++ ']' :: outer = body ++ ']' :: behind) :
    ∃ rest, tail = body ++ ']' :: rest ∧ behind = rest ++ ']' :: outer := by
  rcases List.append_eq_append_iff.mp same with ⟨more, rfl, -⟩ | ⟨more, rfl, closes⟩
  · exact absurd balancedBody (balanced.not_balanced_behind_opening more)
  · cases more with
    | nil =>
        have unbalanced := balanced.not_balanced_behind_opening []
        simp only [List.append_nil] at unbalanced
        exact absurd balancedBody unbalanced
    | cons character rest =>
        obtain ⟨rfl, rfl⟩ := List.cons.inj closes
        exact ⟨rest, rfl, rfl⟩

end Balanced

namespace Block

variable {before body behind : List Char}

/-- Cutting the characters of a loop that begins at a seam out of the code of a block leaves
the code of a block that omits it. -/
theorem exists_omits {block : Block} {seam : Bool}
    (split : block.code = before ++ '[' :: (body ++ ']' :: behind)) (balanced : Balanced body)
    (atSeam : Symbol.atSeam seam (Symbol.ofCode before) = true) :
    ∃ shorter : Block, shorter.code = before ++ behind ∧ Omits seam block shorter := by
  induction block generalizing seam before behind with
  | done => simp [code] at split
  | comment character meaningless rest inductionHypothesis =>
      cases before with
      | nil =>
          obtain ⟨rfl, -⟩ := List.cons.inj split
          simp [Symbol.ofChar?] at meaningless
      | cons first before =>
          obtain ⟨rfl, splitRest⟩ := List.cons.inj split
          rw [Symbol.ofCode_comment meaningless] at atSeam
          obtain ⟨shorter, written, omits⟩ := inductionHypothesis splitRest atSeam
          exact ⟨.comment character meaningless shorter, by simp [code, written], .comment omits⟩
  | command action rest inductionHypothesis =>
      cases before with
      | nil =>
          obtain ⟨isOpening, -⟩ := List.cons.inj split
          cases action <;> simp [Command.toChar] at isOpening
      | cons first before =>
          obtain ⟨rfl, splitRest⟩ := List.cons.inj split
          rw [Symbol.ofCode_command, Symbol.atSeam_cons] at atSeam
          obtain ⟨shorter, written, omits⟩ := inductionHypothesis splitRest atSeam
          exact ⟨.command action shorter, by simp [code, written], .command omits⟩
  | loop inner rest innerHypothesis restHypothesis =>
      cases before with
      | nil =>
          obtain ⟨-, splitInner⟩ := List.cons.inj split
          obtain ⟨-, rfl⟩ := inner.balanced_code.append_closing_inj balanced splitInner
          obtain rfl : seam = true := atSeam
          exact ⟨rest, rfl, .loop⟩
      | cons first before =>
          obtain ⟨rfl, splitInner⟩ := List.cons.inj split
          rw [Symbol.ofCode_opening, Symbol.atSeam_cons] at atSeam
          -- The loop that is cut out begins either in the body of this one or behind it.
          rcases List.append_eq_append_iff.mp splitInner with
            ⟨more, rfl, closes⟩ | ⟨more, splitBody, opens⟩
          · cases more with
            | nil => simp at closes
            | cons second before =>
                obtain ⟨rfl, splitRest⟩ := List.cons.inj closes
                simp only [Symbol.ofCode_append, Symbol.atSeam_append, Symbol.ofCode_closing,
                  Symbol.atSeam_cons] at atSeam
                obtain ⟨shorter, written, omits⟩ := restHypothesis splitRest atSeam
                exact ⟨.loop inner shorter, by simp [code, written], .behind omits⟩
          · cases more with
            | nil => simp at opens
            | cons second tail =>
                obtain ⟨rfl, ends⟩ := List.cons.inj opens
                have balancedInner := inner.balanced_code
                rw [splitBody] at balancedInner
                obtain ⟨within, rfl, rfl⟩ :=
                  balancedInner.loop_ends_inside balanced ends.symm
                obtain ⟨shorter, written, omits⟩ := innerHypothesis splitBody atSeam
                exact ⟨.loop shorter rest, by simp [code, written], .inside omits⟩

end Block

namespace Program

/-- A closing bracket stands directly before this place. -/
def BehindLoop (program : Program) (place : Nat) : Prop :=
  ∃ closing opening, place = closing + 1 ∧ program.get? closing = some (.loopEnd opening)

/-- Nothing stands before this place, or directly before it a closing bracket. -/
def Seam (program : Program) (place : Nat) : Prop :=
  place = 0 ∨ program.BehindLoop place

variable {before body behind : List Char}

/-- The symbols of a code before a seam of its program are followed by one. -/
theorem Resolves.atSeam {program : Program} {code : List Char}
    (resolves : program.Resolves (Symbol.ofCode (before ++ code)))
    (seam : program.Seam (Symbol.ofCode before).length) :
    Symbol.atSeam true (Symbol.ofCode before) = true := by
  rcases List.eq_nil_or_concat (Symbol.ofCode before) with none | ⟨front, last, split⟩
  · rw [none, Symbol.atSeam_nil]
  · rw [List.concat_eq_append] at split
    rw [split, Symbol.atSeam_append, Symbol.atSeam_cons, Symbol.atSeam_nil]
    rw [split, List.length_append, List.length_singleton] at seam
    rcases seam with first | ⟨closing, opening, place, here⟩
    · simp at first
    · obtain rfl : front.length = closing := by omega
      have found : (program.instructions.toList.map Instruction.symbol)[front.length]? =
          some (.bracket .closing) := by
        rw [List.getElem?_map, Array.getElem?_toList]
        exact congrArg (Option.map Instruction.symbol) here
      rw [resolves.symbols, Symbol.ofCode_append, split] at found
      have closes : last = .bracket .closing := by simpa using found
      rw [closes]
      rfl

/-- In the program of a block, the opening bracket of a loop of its code names the place
behind the body's symbols. -/
theorem get?_of_loop {block : Block}
    (split : block.code = before ++ '[' :: (body ++ ']' :: behind)) (balanced : Balanced body) :
    (ofBlock block).get? (Symbol.ofCode before).length =
      some (.loopBegin ((Symbol.ofCode before).length + (Symbol.ofCode body).length + 1)) := by
  have partners : Partners block.code before.length (before.length + (body.length + 1)) :=
    ⟨before, body, behind, split, balanced, rfl, rfl⟩
  have means : Symbol.ofChar? '[' = some (.bracket .opening) := rfl
  obtain ⟨instruction, stands, renders⟩ :=
    (carries_ofBlock block).rendersAt partners.opening_bracket means
  have place : Symbol.countBefore block.code before.length = (Symbol.ofCode before).length := by
    rw [split, Symbol.countBefore, List.take_left]
  rw [place, Nat.zero_add] at stands
  rw [stands]
  cases renders with
  | @command action here =>
      rw [partners.opening_bracket] at here
      cases action <;> simp [Command.toChar] at here
  | closing others =>
      have here := others.closing_bracket
      simp [partners.opening_bracket] at here
  | opening others =>
      have closing := Scanner.closingPartner?_of_partners partners
      rw [Scanner.closingPartner?_of_partners others] at closing
      obtain rfl := Option.some.inj closing
      have counted : Symbol.countBefore block.code (before.length + (body.length + 1)) =
          (Symbol.ofCode before).length + ((Symbol.ofCode body).length + 1) := by
        rw [split, Symbol.countBefore_append]
        simp [Symbol.countBefore]
      rw [counted, Nat.zero_add, Nat.add_assoc]

end Program

end Brainfuck
