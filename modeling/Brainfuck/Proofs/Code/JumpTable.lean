import Brainfuck.Machine.Interpreter
import Brainfuck.Proofs.Code.Layout
import Brainfuck.Proofs.Code.Waiting

/-!
# The jump table

What the instructions of a valid code say about each other. A stretch of a
program that carries a block consists of commands and of the two brackets of
loops that lie within the stretch (`Program.Carries.command_or_bracket`); that
brackets name each other and that loops never cross is read off from there, by
looking at a loop's body as a stretch of its own.
-/

namespace Brainfuck

/-- Every symbol of a code comes from a character that writes it. -/
theorem Symbol.count_ofCode (symbol : Symbol) (code : List Char) :
    (Symbol.ofCode code).count symbol = code.count symbol.toChar := by
  induction code with
  | nil => rfl
  | cons character rest inductionHypothesis =>
      cases means : Symbol.ofChar? character with
      | none =>
          have differs : character ≠ symbol.toChar := by
            rintro rfl
            simp at means
          rw [Symbol.ofCode_comment means, inductionHypothesis, List.count_cons_of_ne differs]
      | some found =>
          rw [Symbol.ofCode_cons_some means]
          obtain rfl := Symbol.ofChar?_eq_some_iff.mp means
          by_cases same : found = symbol
          · rw [same, List.count_cons_self, List.count_cons_self, inductionHypothesis]
          · have differs : found.toChar ≠ symbol.toChar := by
              intro sameCharacter
              have read := Symbol.ofChar?_toChar symbol
              rw [← sameCharacter, Symbol.ofChar?_toChar] at read
              exact same (Option.some.inj read)
            rw [List.count_cons_of_ne same, List.count_cons_of_ne differs, inductionHypothesis]

/-- A block has as many opening brackets as closing ones. -/
theorem Block.count_brackets (block : Block) :
    (Symbol.ofCode block.code).count (.bracket .opening) =
      (Symbol.ofCode block.code).count (.bracket .closing) := by
  induction block with
  | done => rfl
  | comment character meaningless rest inductionHypothesis =>
      simp [code, meaningless, inductionHypothesis]
  | command action rest inductionHypothesis => simp [code, inductionHypothesis]
  | loop body rest bodyHypothesis restHypothesis =>
      simp [code, bodyHypothesis, restHypothesis]
      omega

namespace Program

/-- The instructions strictly between two places. -/
def between (program : Program) (first last : Nat) : List Instruction :=
  (program.instructions.toList.drop (first + 1)).take (last - (first + 1))

/-- The brackets of a program with these symbols name each other, and its loops
are nested or disjoint. -/
structure Resolves (program : Program) (symbols : List Symbol) : Prop where
  /-- One instruction for each symbol, in order and of the same kind. -/
  symbols : program.instructions.toList.map Instruction.symbol = symbols
  /-- An opening bracket names a place further on, whose closing bracket names it. -/
  opening : ∀ place partner, program.get? place = some (.loopBegin partner) ->
    place < partner ∧ partner < program.size ∧ program.get? partner = some (.loopEnd place)
  /-- A closing bracket names a place before it, whose opening bracket names it. -/
  closing : ∀ place partner, program.get? place = some (.loopEnd partner) ->
    partner < place ∧ program.get? partner = some (.loopBegin place)
  /-- No bracket names its own place. -/
  elsewhere : ∀ place, program.get? place ≠ some (.loopBegin place) ∧
    program.get? place ≠ some (.loopEnd place)
  /-- As many brackets open as close between two partners. -/
  evenly : ∀ first last, program.get? first = some (.loopBegin last) ->
    ((program.between first last).map Instruction.symbol).count (.bracket .opening) =
      ((program.between first last).map Instruction.symbol).count (.bracket .closing)
  /-- Brackets between two partners have their partners there too. -/
  nested : ∀ first last place partner, program.get? first = some (.loopBegin last) ->
    first < place -> place < last ->
    program.get? place = some (.loopBegin partner) ∨
      program.get? place = some (.loopEnd partner) ->
    first < partner ∧ partner < last

variable {program : Program}

/-- A loop whose opening bracket stands at a place lies between two bounds. -/
structure LoopWithin (program : Program) (first behind place : Nat) (body : Block) : Prop where
  bounded : first ≤ place ∧ place + body.size + 2 ≤ behind
  carries : program.Carries place (.loop body .done)

/-- The opening bracket of a loop names the place of the closing one. -/
theorem LoopWithin.opening {first behind place : Nat} {body : Block}
    (loop : program.LoopWithin first behind place body) :
    program.get? place = some (.loopBegin (place + body.size + 1)) :=
  (carries_loop_iff.mp loop.carries).1

/-- The closing bracket of a loop names the place of the opening one. -/
theorem LoopWithin.closing {first behind place : Nat} {body : Block}
    (loop : program.LoopWithin first behind place body) :
    program.get? (place + body.size + 1) = some (.loopEnd place) :=
  (carries_loop_iff.mp loop.carries).2.2.1

/-- The body of a loop is carried between its brackets. -/
theorem LoopWithin.body {first behind place : Nat} {body : Block}
    (loop : program.LoopWithin first behind place body) : program.Carries (place + 1) body :=
  (carries_loop_iff.mp loop.carries).2.1

/-- The instruction at a place is a command, or a bracket of a loop that lies
between two bounds. -/
def CommandOrBracket (program : Program) (first behind place : Nat) : Prop :=
  (∃ action, program.get? place = some (.command action)) ∨
    ∃ opening body, program.LoopWithin first behind opening body ∧
      (place = opening ∨ place = opening + body.size + 1)

/-- What lies between two bounds also lies between wider ones. -/
theorem CommandOrBracket.widen {first behind wideFirst wideBehind place : Nat}
    (found : program.CommandOrBracket first behind place) (firstLe : wideFirst ≤ first)
    (behindLe : behind ≤ wideBehind) : program.CommandOrBracket wideFirst wideBehind place := by
  rcases found with isCommand | ⟨opening, body, ⟨⟨fromFirst, toBehind⟩, carries⟩, isBracket⟩
  · exact .inl isCommand
  · exact .inr ⟨opening, body, ⟨⟨by omega, by omega⟩, carries⟩, isBracket⟩

/-- Where a program carries a block, each instruction is a command or a bracket of
a loop that lies within the block. -/
theorem Carries.command_or_bracket {block : Block} {first place : Nat}
    (carries : program.Carries first block) (fromFirst : first ≤ place)
    (inside : place < first + block.size) :
    program.CommandOrBracket first (first + block.size) place := by
  induction block generalizing first with
  | done => simp [Block.size] at inside; omega
  | comment character meaningless rest inductionHypothesis =>
      exact inductionHypothesis carries fromFirst inside
  | command action rest inductionHypothesis =>
      obtain ⟨here, carriesRest⟩ := carries_command_iff.mp carries
      simp only [Block.size] at inside ⊢
      by_cases isFirst : place = first
      · exact .inl ⟨action, isFirst ▸ here⟩
      · have found := inductionHypothesis carriesRest (by omega) (by omega)
        exact found.widen (by omega) (by omega)
  | loop body rest bodyHypothesis restHypothesis =>
      obtain ⟨opening, carriesBody, closing, carriesRest⟩ := carries_loop_iff.mp carries
      simp only [Block.size] at inside ⊢
      have loop : program.LoopWithin first (first + (body.size + rest.size + 2)) first body :=
        ⟨⟨by omega, by omega⟩, carries_loop_iff.mpr ⟨opening, carriesBody, closing, trivial⟩⟩
      by_cases isOpening : place = first
      · exact .inr ⟨first, body, loop, .inl isOpening⟩
      by_cases isClosing : place = first + body.size + 1
      · exact .inr ⟨first, body, loop, .inr isClosing⟩
      by_cases inBody : place < first + body.size + 1
      · have found := bodyHypothesis carriesBody (by omega) (by omega)
        exact found.widen (by omega) (by omega)
      · have found := restHypothesis carriesRest (by omega) (by omega)
        exact found.widen (by omega) (by omega)

/-- An opening bracket in a block that is carried opens a loop within it. -/
theorem Carries.exists_loop_of_opening {block : Block} {first place partner : Nat}
    (carries : program.Carries first block) (fromFirst : first ≤ place)
    (inside : place < first + block.size)
    (here : program.get? place = some (.loopBegin partner)) :
    ∃ body, program.LoopWithin first (first + block.size) place body ∧
      partner = place + body.size + 1 := by
  rcases carries.command_or_bracket fromFirst inside with
    ⟨action, isCommand⟩ | ⟨opening, body, loop, rfl | rfl⟩
  · simp [here] at isCommand
  · have named := loop.opening
    rw [here] at named
    exact ⟨body, loop, by simpa using named⟩
  · have named := loop.closing
    simp [here] at named

/-- A closing bracket in a block that is carried closes a loop within it. -/
theorem Carries.exists_loop_of_closing {block : Block} {first place partner : Nat}
    (carries : program.Carries first block) (fromFirst : first ≤ place)
    (inside : place < first + block.size)
    (here : program.get? place = some (.loopEnd partner)) :
    ∃ body, program.LoopWithin first (first + block.size) partner body ∧
      place = partner + body.size + 1 := by
  rcases carries.command_or_bracket fromFirst inside with
    ⟨action, isCommand⟩ | ⟨opening, body, loop, rfl | rfl⟩
  · simp [here] at isCommand
  · have named := loop.opening
    simp [here] at named
  · have named := loop.closing
    rw [here] at named
    obtain rfl : partner = opening := by simpa using named
    exact ⟨body, loop, rfl⟩

/-- Instructions that stand in a row are found there. -/
theorem Continues.take_drop {place : Nat} {row : List Instruction}
    (continues : program.Continues place row) :
    (program.instructions.toList.drop place).take row.length = row := by
  induction row generalizing place with
  | nil => simp
  | cons instruction rest inductionHypothesis =>
      obtain ⟨here, continuesRest⟩ := continues
      have found : program.instructions.toList[place]? = some instruction := by
        simpa [get?] using here
      obtain ⟨inside, isThere⟩ := List.getElem?_eq_some_iff.mp found
      rw [List.drop_eq_getElem_cons inside, isThere, List.length_cons, List.take_succ_cons,
        inductionHypothesis continuesRest]

/-- Between the brackets of a loop stands the layout of its body. -/
theorem LoopWithin.between {first behind place : Nat} {body : Block}
    (loop : program.LoopWithin first behind place body) :
    program.between place (place + body.size + 1) = body.layout (place + 1) := by
  have row := Continues.take_drop loop.body
  have distance : place + body.size + 1 - (place + 1) = (body.layout (place + 1)).length := by
    rw [Block.length_layout]
    omega
  rw [Program.between, distance, row]

/-- An instruction of the program of a block stands before the block's end. -/
theorem lt_of_get?_ofBlock {block : Block} {place : Nat} {instruction : Instruction}
    (here : (ofBlock block).get? place = some instruction) : place < 0 + block.size := by
  obtain ⟨inside, -⟩ := Array.getElem?_eq_some_iff.mp here
  simpa [ofBlock] using inside

/-- The program of a block resolves the brackets of its code. -/
theorem resolves_ofBlock (block : Block) :
    (ofBlock block).Resolves (Symbol.ofCode block.code) := by
  have carries := carries_ofBlock block
  have openings : ∀ {place partner}, (ofBlock block).get? place = some (.loopBegin partner) ->
      ∃ body, (ofBlock block).LoopWithin 0 (0 + block.size) place body ∧
        partner = place + body.size + 1 := fun here =>
    carries.exists_loop_of_opening (Nat.zero_le _) (lt_of_get?_ofBlock here) here
  have closings : ∀ {place partner}, (ofBlock block).get? place = some (.loopEnd partner) ->
      ∃ body, (ofBlock block).LoopWithin 0 (0 + block.size) partner body ∧
        place = partner + body.size + 1 := fun here =>
    carries.exists_loop_of_closing (Nat.zero_le _) (lt_of_get?_ofBlock here) here
  constructor
  · simp [ofBlock]
  · intro place partner here
    obtain ⟨body, loop, rfl⟩ := openings here
    obtain ⟨inside, -⟩ := Array.getElem?_eq_some_iff.mp loop.closing
    exact ⟨by omega, inside, loop.closing⟩
  · intro place partner here
    obtain ⟨body, loop, rfl⟩ := closings here
    exact ⟨by omega, loop.opening⟩
  · intro place
    constructor
    · intro here
      obtain ⟨body, -, same⟩ := openings here
      omega
    · intro here
      obtain ⟨body, -, same⟩ := closings here
      omega
  · intro first last here
    obtain ⟨body, loop, rfl⟩ := openings here
    rw [loop.between, Block.map_symbol_layout]
    exact body.count_brackets
  · intro first last place partner here behindFirst beforeLast isBracket
    obtain ⟨body, loop, rfl⟩ := openings here
    -- The loop's body is a stretch of its own, in which the other bracket has its partner.
    rcases isBracket with isOpening | isClosing
    · obtain ⟨inner, ⟨⟨-, toEnd⟩, -⟩, rfl⟩ :=
        loop.body.exists_loop_of_opening behindFirst (by omega) isOpening
      omega
    · obtain ⟨inner, ⟨⟨fromStart, -⟩, -⟩, rfl⟩ :=
        loop.body.exists_loop_of_closing behindFirst (by omega) isClosing
      omega

/-- A program has as many loops as its symbols have closing brackets. -/
theorem loopCount_eq_count (program : Program) :
    program.loopCount =
      (program.instructions.toList.map Instruction.symbol).count (.bracket .closing) := by
  rw [loopCount, ← Array.countP_toList, List.count, List.countP_map]
  apply List.countP_congr
  intro instruction _
  cases instruction <;> simp [Instruction.isLoopEnd, Instruction.symbol]

/-- What is logged about the program of a code: an instruction for each of its symbols, and
a loop for each closing bracket. -/
theorem compiled_of_symbols {program : Program} {code : List Char}
    (symbols : program.instructions.toList.map Instruction.symbol = Symbol.ofCode code) :
    program.compiled = .compiled (Symbol.ofCode code).length (code.count ']') := by
  have size : program.size = (Symbol.ofCode code).length := by
    rw [← symbols, List.length_map, Array.length_toList, Program.size]
  have closings : program.loopCount = code.count ']' := by
    rw [loopCount_eq_count, symbols]
    exact Symbol.count_ofCode (.bracket .closing) code
  rw [compiled, size, closings]

end Program

/-- While a code is compiled, a closing bracket finds a bracket that waits for
it, is already written, and still names its own place. -/
def Compilation.ResolvesEach (code : List Char) : Prop :=
  ∀ before behind, code = before ++ ']' :: behind ->
    ∃ innermost outer, (before.foldl take empty).waiting = innermost :: outer ∧
      innermost < (before.foldl take empty).written.size ∧
      (before.foldl take empty).written[innermost]? = some (.loopBegin innermost)

/-- A valid code is compiled without a closing bracket for which nobody waits. -/
theorem Compilation.resolvesEach_of_validate {code : List Char}
    (accepted : validate code = .ok ()) : ResolvesEach code := by
  rintro before behind rfl
  have noFault := validate_eq_ok_iff_findFault.mp accepted
  obtain ⟨innermost, outer, waiting⟩ :
      ∃ innermost outer, (before.foldl take empty).waiting = innermost :: outer :=
    exists_waiting noFault
  have sound := sound_empty.foldl before
  have waits : innermost ∈ (before.foldl take empty).waiting := by simp [waiting]
  exact ⟨innermost, outer, waiting, sound.lt_size waits, sound.placeholders innermost waits⟩

/-- A code that validation accepts is compiled to a program that resolves its
brackets; no closing bracket is left without a partner on the way, and what is
logged counts the opening brackets of the code, which are as many as the closing
ones. -/
theorem parse_resolves {code : List Char} (accepted : validate code = .ok ()) :
    ∃ program, Program.parse code = .ok program ∧ program.Resolves (Symbol.ofCode code) ∧
      Compilation.ResolvesEach code ∧
      program.loopCount = code.count '[' ∧ program.loopCount = code.count ']' ∧
      Interpreter.compilationEvents code =
        [.compiled (Symbol.ofCode code).length (code.count '[')] := by
  have resolvesEach := Compilation.resolvesEach_of_validate accepted
  obtain ⟨block, rfl⟩ := (balanced_of_validate accepted).exists_block
  have resolves := Program.resolves_ofBlock block
  have closings : (Program.ofBlock block).loopCount = block.code.count ']' := by
    rw [Program.loopCount_eq_count, resolves.symbols]
    exact Symbol.count_ofCode (.bracket .closing) block.code
  have openings : block.code.count '[' = block.code.count ']' := by
    have even := block.count_brackets
    rwa [Symbol.count_ofCode, Symbol.count_ofCode] at even
  have size : (Program.ofBlock block).size = (Symbol.ofCode block.code).length := by
    rw [← resolves.symbols, List.length_map, Array.length_toList, Program.size]
  refine ⟨.ofBlock block, block.parse_code, resolves, resolvesEach, ?_, closings, ?_⟩
  · rw [closings, openings]
  · simp [Interpreter.compilationEvents, block.parse_code, Program.compiled, size, closings,
      openings]

/-- Two loops in a row within a third one, with comments between them. -/
theorem parse_resolves_commented :
    validate ['a', '[', '[', '+', ']', 'b', '[', ']', '-', ']'] = .ok () ∧
      ∃ program,
        Program.parse ['a', '[', '[', '+', ']', 'b', '[', ']', '-', ']'] = .ok program ∧
        program.Resolves (Symbol.ofCode ['a', '[', '[', '+', ']', 'b', '[', ']', '-', ']']) ∧
        Compilation.ResolvesEach ['a', '[', '[', '+', ']', 'b', '[', ']', '-', ']'] ∧
        program.loopCount = 3 ∧ program.loopCount = 3 ∧
        Interpreter.compilationEvents ['a', '[', '[', '+', ']', 'b', '[', ']', '-', ']'] =
          [.compiled 8 3] :=
  ⟨by rfl, parse_resolves (by rfl)⟩

end Brainfuck
