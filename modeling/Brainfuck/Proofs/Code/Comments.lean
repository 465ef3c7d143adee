import Brainfuck.Proofs.Code.Sequence

/-!
# Comments

The characters outside of the alphabet can be taken out of a code without changing
whether it is accepted or what it is compiled to, although the scan counts them in its
positions; and nothing else can. The scan and the compilation pass over a comment each
in its own way, `findFault_withoutComments` and `Compilation.foldl_take_withoutComments`.
Conversely a program says which characters it was compiled from: `Program.written`.
-/

namespace Brainfuck

/-- The characters that mean something. -/
def alphabet : List Char :=
  ['>', '<', '+', '-', '.', ',', '[', ']']

/-- A code without the characters that mean nothing. -/
def withoutComments (code : List Char) : List Char :=
  code.filter (· ∈ alphabet)

/-- The characters of the alphabet are those that write a symbol. -/
theorem Symbol.toChar_mem_alphabet (symbol : Symbol) : symbol.toChar ∈ alphabet := by
  cases symbol with
  | command action => cases action <;> decide
  | bracket side => cases side <;> decide

/-- Outside of the alphabet stand the characters without a meaning. -/
theorem Symbol.ofChar?_eq_none_iff {character : Char} :
    ofChar? character = none ↔ character ∉ alphabet := by
  constructor
  · intro meaningless inside
    have means : alphabet.all (fun letter => (ofChar? letter).isSome) = true := by decide
    have meant := List.all_eq_true.mp means character inside
    simp [meaningless] at meant
  · intro outside
    cases means : ofChar? character with
    | none => rfl
    | some symbol =>
        obtain rfl := ofChar?_eq_some_iff.mp means
        exact absurd symbol.toChar_mem_alphabet outside

@[simp] theorem withoutComments_nil : withoutComments [] = [] := rfl

/-- A comment is taken out. -/
theorem withoutComments_comment {character : Char}
    (meaningless : Symbol.ofChar? character = none) (rest : List Char) :
    withoutComments (character :: rest) = withoutComments rest := by
  have outside := Symbol.ofChar?_eq_none_iff.mp meaningless
  exact List.filter_cons_of_neg (by simpa using outside)

/-- A symbol stays. -/
@[simp] theorem withoutComments_symbol (symbol : Symbol) (rest : List Char) :
    withoutComments (symbol.toChar :: rest) = symbol.toChar :: withoutComments rest :=
  List.filter_cons_of_pos (by simpa using symbol.toChar_mem_alphabet)

/-- What stays are the characters of the symbols. -/
theorem withoutComments_eq_map (code : List Char) :
    withoutComments code = (Symbol.ofCode code).map Symbol.toChar := by
  induction code with
  | nil => rfl
  | cons character rest inductionHypothesis =>
      cases means : Symbol.ofChar? character with
      | none =>
          rw [withoutComments_comment means, Symbol.ofCode_comment means, inductionHypothesis]
      | some symbol =>
          rw [Symbol.ofCode_cons_some means, List.map_cons, ← inductionHypothesis]
          obtain rfl := Symbol.ofChar?_eq_some_iff.mp means
          exact withoutComments_symbol symbol rest

/-- A scan finds a fault in a code or in what is left of it, wherever it believes to
stand, or in neither. -/
theorem findFault_withoutComments (code : List Char)
    (position barePosition depth lastOpening bareLastOpening : Nat) :
    findFault position depth lastOpening code = none ↔
      findFault barePosition depth bareLastOpening (withoutComments code) = none := by
  induction code generalizing position barePosition depth lastOpening bareLastOpening with
  | nil => cases depth <;> simp [findFault]
  | cons character rest inductionHypothesis =>
      cases means : Symbol.ofChar? character with
      | none =>
          rw [withoutComments_comment means, findFault_other (Symbol.bracket_eq_none means)]
          exact inductionHypothesis _ _ _ _ _
      | some symbol =>
          obtain rfl := Symbol.ofChar?_eq_some_iff.mp means
          rw [withoutComments_symbol]
          cases symbol with
          | command action =>
              have noBracket : Bracket.ofChar? action.toChar = none := by cases action <;> rfl
              rw [Symbol.toChar, findFault_other noBracket, findFault_other noBracket]
              exact inductionHypothesis _ _ _ _ _
          | bracket side =>
              cases side with
              | opening => exact inductionHypothesis _ _ _ _ _
              | closing =>
                  cases depth with
                  | zero => simp [Symbol.toChar, Bracket.toChar]
                  | succ outerDepth => exact inductionHypothesis _ _ _ _ _

/-- Validation accepts a code exactly if it accepts what is left of it. -/
theorem validate_withoutComments (code : List Char) :
    validate code = .ok () ↔ validate (withoutComments code) = .ok () := by
  rw [validate_eq_ok_iff_findFault, validate_eq_ok_iff_findFault]
  exact findFault_withoutComments code 0 0 0 0 0

/-- A compilation takes in a code and what is left of it alike. -/
theorem Compilation.foldl_take_withoutComments (code : List Char) (compilation : Compilation) :
    (withoutComments code).foldl take compilation = code.foldl take compilation := by
  induction code generalizing compilation with
  | nil => rfl
  | cons character rest inductionHypothesis =>
      cases means : Symbol.ofChar? character with
      | none =>
          rw [withoutComments_comment means, List.foldl_cons, take_comment means]
          exact inductionHypothesis compilation
      | some symbol =>
          obtain rfl := Symbol.ofChar?_eq_some_iff.mp means
          rw [withoutComments_symbol, List.foldl_cons, List.foldl_cons]
          exact inductionHypothesis (compilation.take symbol.toChar)

namespace Program

/-- A code is compiled to the same program as what is left of it. -/
theorem compile_withoutComments (code : List Char) :
    compile (withoutComments code) = compile code := by
  rw [compile, compile, Compilation.foldl_take_withoutComments]

/-- What is left of a code is compiled to its program. -/
theorem parse_withoutComments {code : List Char} {program : Program}
    (parsed : parse code = .ok program) : parse (withoutComments code) = .ok program := by
  obtain ⟨accepted, rfl⟩ := parse_eq_ok_iff.mp parsed
  apply parse_eq_ok_iff.mpr
  exact ⟨(validate_withoutComments code).mp accepted, (compile_withoutComments code).symm⟩

/-- The instructions of a program, written as characters. -/
def written (program : Program) : List Char :=
  program.instructions.toList.map fun instruction => instruction.symbol.toChar

/-- The program of a code is written as what is left of that code. -/
theorem written_of_parse {code : List Char} {program : Program}
    (parsed : parse code = .ok program) : program.written = withoutComments code := by
  rw [withoutComments_eq_map, ← (resolves_of_parse parsed).symbols, List.map_map]
  rfl

/-- Two codes with a program each have the same one exactly if the same is left of
them. -/
theorem eq_iff_withoutComments_eq {left right : List Char} {first second : Program}
    (parsedLeft : parse left = .ok first) (parsedRight : parse right = .ok second) :
    first = second ↔ withoutComments left = withoutComments right := by
  constructor
  · rintro rfl
    rw [← written_of_parse parsedLeft, written_of_parse parsedRight]
  · intro same
    have bareLeft := parse_withoutComments parsedLeft
    rw [same, parse_withoutComments parsedRight] at bareLeft
    exact (Except.ok.inj bareLeft).symm

/-- Comments do not matter, and nothing else is lost. A code is accepted exactly if it
is accepted without its comments. Codes that have programs have the same one exactly if
they have the same characters of the alphabet, in order. And the instructions of a
program, written as characters, are a code that is compiled to this program. -/
theorem parse_forgets_comments :
    (∀ code, validate code = .ok () ↔ validate (withoutComments code) = .ok ()) ∧
      (∀ left right first second, parse left = .ok first -> parse right = .ok second ->
        (first = second ↔ withoutComments left = withoutComments right)) ∧
      ∀ code program, parse code = .ok program -> parse program.written = .ok program := by
  refine ⟨validate_withoutComments, ?_, ?_⟩
  · intro left right first second parsedLeft parsedRight
    exact eq_iff_withoutComments_eq parsedLeft parsedRight
  · intro code program parsed
    rw [written_of_parse parsed]
    exact parse_withoutComments parsed

/-- Two codes of one loop, with comments in different places. -/
theorem parse_forgets_comments_between :
    (validate ['a', '[', '+', ']', 'b'] = .ok () ↔
        validate (withoutComments ['a', '[', '+', ']', 'b']) = .ok ()) ∧
      ∃ first second, parse ['a', '[', '+', ']', 'b'] = .ok first ∧
        parse ['[', 'x', '+', 'y', ']'] = .ok second ∧
        (first = second ↔ withoutComments ['a', '[', '+', ']', 'b'] =
          withoutComments ['[', 'x', '+', 'y', ']']) ∧
        parse first.written = .ok first := by
  have parsed : parse ['a', '[', '+', ']', 'b'] =
      .ok ⟨#[.loopBegin 2, .command .increment, .loopEnd 0]⟩ := rfl
  have parsedToo : parse ['[', 'x', '+', 'y', ']'] =
      .ok ⟨#[.loopBegin 2, .command .increment, .loopEnd 0]⟩ := rfl
  obtain ⟨accepts, identifies, rewrites⟩ := parse_forgets_comments
  exact ⟨accepts _, _, _, parsed, parsedToo, identifies _ _ _ _ parsed parsedToo,
    rewrites _ _ parsed⟩

end Program

end Brainfuck
