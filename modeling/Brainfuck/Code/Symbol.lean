import Brainfuck.Code.Fault

/-!
# Symbols

The eight characters that mean something. Six are commands and two are the
brackets of a loop; every other character of a code is a comment.
-/

namespace Brainfuck

/-- What a code can ask of the tape, the source and the sink. -/
inductive Command where
  | moveRight
  | moveLeft
  | increment
  | decrement
  | output
  | input
  deriving DecidableEq, Repr

/-- The character that writes a command. -/
def Command.toChar : Command -> Char
  | .moveRight => '>'
  | .moveLeft => '<'
  | .increment => '+'
  | .decrement => '-'
  | .output => '.'
  | .input => ','

/-- A character of the alphabet: a command or a bracket. -/
inductive Symbol where
  | command (action : Command)
  | bracket (side : Bracket)
  deriving DecidableEq, Repr

namespace Symbol

/-- The character that writes a symbol. -/
def toChar : Symbol -> Char
  | .command action => action.toChar
  | .bracket side => side.toChar

/-- The symbol that a character writes; a comment writes none. -/
def ofChar? : Char -> Option Symbol
  | '>' => some (.command .moveRight)
  | '<' => some (.command .moveLeft)
  | '+' => some (.command .increment)
  | '-' => some (.command .decrement)
  | '.' => some (.command .output)
  | ',' => some (.command .input)
  | '[' => some (.bracket .opening)
  | ']' => some (.bracket .closing)
  | _ => none

/-- Reading the character of a symbol gives that symbol. -/
@[simp] theorem ofChar?_toChar (symbol : Symbol) : ofChar? symbol.toChar = some symbol := by
  cases symbol with
  | command action => cases action <;> rfl
  | bracket side => cases side <;> rfl

/-- The symbols of a code, in order and without its comments. -/
def ofCode (code : List Char) : List Symbol :=
  code.filterMap ofChar?

/-- Reading the character of a command gives that command. -/
@[simp] theorem ofChar?_command (action : Command) :
    ofChar? action.toChar = some (.command action) :=
  ofChar?_toChar (.command action)

/-- A character is read as a symbol exactly when it writes that symbol. -/
theorem ofChar?_eq_some_iff {character : Char} {symbol : Symbol} :
    ofChar? character = some symbol ↔ character = symbol.toChar := by
  constructor
  · intro read
    unfold ofChar? at read
    split at read <;> cases read <;> rfl
  · rintro rfl
    exact ofChar?_toChar symbol

/-- A character without a meaning is no bracket. -/
theorem bracket_eq_none {character : Char} (meaningless : ofChar? character = none) :
    Bracket.ofChar? character = none := by
  unfold Bracket.ofChar?
  split
  · simp [ofChar?] at meaningless
  · simp [ofChar?] at meaningless
  · rfl

@[simp] theorem ofCode_nil : ofCode [] = [] := rfl

/-- A comment adds nothing to the symbols of a code. -/
@[simp] theorem ofCode_comment {character : Char} (meaningless : ofChar? character = none)
    (rest : List Char) : ofCode (character :: rest) = ofCode rest :=
  List.filterMap_cons_none meaningless

/-- A character with a meaning adds its symbol in front. -/
theorem ofCode_cons_some {character : Char} {symbol : Symbol}
    (means : ofChar? character = some symbol) (rest : List Char) :
    ofCode (character :: rest) = symbol :: ofCode rest :=
  List.filterMap_cons_some means

@[simp] theorem ofCode_command (action : Command) (rest : List Char) :
    ofCode (action.toChar :: rest) = .command action :: ofCode rest :=
  ofCode_cons_some (ofChar?_command action) rest

@[simp] theorem ofCode_opening (rest : List Char) :
    ofCode ('[' :: rest) = .bracket .opening :: ofCode rest := rfl

@[simp] theorem ofCode_closing (rest : List Char) :
    ofCode (']' :: rest) = .bracket .closing :: ofCode rest := rfl

/-- The symbols of two codes in a row. -/
@[simp] theorem ofCode_append (left right : List Char) :
    ofCode (left ++ right) = ofCode left ++ ofCode right := by
  simp [ofCode]

/-- A command again and again is that command as often. -/
@[simp] theorem ofCode_replicate (action : Command) (count : Nat) :
    ofCode (List.replicate count action.toChar) = List.replicate count (.command action) := by
  simp [ofCode]

/-- The number of symbols before a place of a code. -/
def countBefore (code : List Char) (place : Nat) : Nat :=
  (ofCode (code.take place)).length

@[simp] theorem countBefore_zero (code : List Char) : countBefore code 0 = 0 := rfl

/-- Behind its first part, a code has the symbols of that part before all others. -/
@[simp] theorem countBefore_append (before code : List Char) (place : Nat) :
    countBefore (before ++ code) (before.length + place) =
      (ofCode before).length + countBefore code place := by
  simp [countBefore, List.take_length_add_append]

/-- What stands behind a place does not count. -/
theorem countBefore_append_of_le {code : List Char} {place : Nat} (inside : place ≤ code.length)
    (behind : List Char) : countBefore (code ++ behind) place = countBefore code place := by
  rw [countBefore, List.take_append_of_le_length inside, countBefore]

/-- Behind a code, all of its symbols have been counted. -/
theorem countBefore_of_length_le {code : List Char} {place : Nat} (behind : code.length ≤ place) :
    countBefore code place = (ofCode code).length := by
  rw [countBefore, List.take_of_length_le behind]

/-- A comment does not count. -/
theorem countBefore_succ_of_comment {code : List Char} {place : Nat} {character : Char}
    (here : code[place]? = some character) (meaningless : ofChar? character = none) :
    countBefore code (place + 1) = countBefore code place := by
  simp [countBefore, List.take_add_one, here, meaningless]

/-- Any other character counts for one. -/
theorem countBefore_succ_of_symbol {code : List Char} {place : Nat} {character : Char}
    {symbol : Symbol} (here : code[place]? = some character)
    (means : ofChar? character = some symbol) :
    countBefore code (place + 1) = countBefore code place + 1 := by
  simp [countBefore, List.take_add_one, here, ofCode_cons_some means]

end Symbol

end Brainfuck
