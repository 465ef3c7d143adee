import Brainfuck.Event

/-!
# The tape

A ring of cells with a pointer. Cells are 64-bit signed integers and wrap only at
the bounds of that range. A move over either end goes on at the other end and
is reported; on a ring of one cell every move does.
-/

namespace Brainfuck

/-- What one place of the tape holds. -/
abbrev Cell := Int64

/-- A ring of cells and the place of the current one. -/
@[ext]
structure Tape where
  cells : Array Cell
  pointer : Nat
  pointer_lt : pointer < cells.size
  deriving DecidableEq, Repr

namespace Tape

/-- A tape of zeros with its pointer at the first cell. -/
def blank (length : Nat) (positive : 0 < length) : Tape where
  cells := Array.replicate length 0
  pointer := 0
  pointer_lt := by simpa using positive

/-- The length of a tape that nobody asked to be shorter or longer. -/
def standardLength : Nat := 30000

/-- The blank tape of the standard length. -/
def standard : Tape :=
  blank standardLength (by decide)

/-- The number of cells. -/
def length (tape : Tape) : Nat :=
  tape.cells.size

/-- The current cell. -/
def cell (tape : Tape) : Cell :=
  have := tape.pointer_lt
  tape.cells[tape.pointer]

/-- Puts a value into the current cell. -/
def store (tape : Tape) (value : Cell) : Tape where
  cells := tape.cells.set tape.pointer value tape.pointer_lt
  pointer := tape.pointer
  pointer_lt := by simpa using tape.pointer_lt

/-- Moves the pointer to the next cell, from the last one to the first. -/
def moveRight (tape : Tape) : Tape × List Event :=
  if last : tape.pointer + 1 = tape.cells.size then
    (⟨tape.cells, 0, by omega⟩, [.pointerWrapped tape.pointer 0])
  else
    (⟨tape.cells, tape.pointer + 1, by have := tape.pointer_lt; omega⟩, [])

/-- Moves the pointer to the previous cell, from the first one to the last. -/
def moveLeft (tape : Tape) : Tape × List Event :=
  if tape.pointer = 0 then
    (⟨tape.cells, tape.cells.size - 1, by have := tape.pointer_lt; omega⟩,
      [.pointerWrapped 0 (tape.cells.size - 1)])
  else
    (⟨tape.cells, tape.pointer - 1, by have := tape.pointer_lt; omega⟩, [])

/-- What can be done to a tape. -/
inductive Action where
  | moveRight
  | moveLeft
  | store (value : Cell)
  deriving DecidableEq, Repr

/-- The tape after an action, and what the action logs. -/
def act (tape : Tape) : Action -> Tape × List Event
  | .moveRight => tape.moveRight
  | .moveLeft => tape.moveLeft
  | .store value => (tape.store value, [])

/-- The tape after a sequence of actions and what was logged; `logged` is what
was logged before, the latest first. -/
def actFrom (logged : List Event) (tape : Tape) : List Action -> Tape × List Event
  | [] => (tape, logged.reverse)
  | action :: rest =>
      let (next, events) := tape.act action
      next.actFrom (events.reverseAux logged) rest

/-- The tape after a sequence of actions, and what they log in order. -/
def actAll (tape : Tape) (actions : List Action) : Tape × List Event :=
  tape.actFrom [] actions

/-- The places and values of all cells that are not zero, by ascending place. -/
def nonzero (tape : Tape) : List (Nat × Cell) :=
  (tape.cells.toList.zipIdx.filter fun entry => entry.1 ≠ 0).map Prod.swap

@[simp] theorem length_store (tape : Tape) (value : Cell) :
    (tape.store value).length = tape.length := by
  simp [length, store]

@[simp] theorem length_moveRight (tape : Tape) : tape.moveRight.1.length = tape.length := by
  unfold moveRight length
  split <;> rfl

@[simp] theorem length_moveLeft (tape : Tape) : tape.moveLeft.1.length = tape.length := by
  unfold moveLeft length
  split <;> rfl

@[simp] theorem cell_store (tape : Tape) (value : Cell) : (tape.store value).cell = value := by
  simp [cell, store]

/-- Of two values only the second one is kept. -/
@[simp] theorem store_store (tape : Tape) (first second : Cell) :
    (tape.store first).store second = tape.store second := by
  simp [store]

@[simp] theorem pointer_store (tape : Tape) (value : Cell) :
    (tape.store value).pointer = tape.pointer := rfl

@[simp] theorem cells_moveRight (tape : Tape) : tape.moveRight.1.cells = tape.cells := by
  unfold moveRight
  split <;> rfl

@[simp] theorem cells_moveLeft (tape : Tape) : tape.moveLeft.1.cells = tape.cells := by
  unfold moveLeft
  split <;> rfl

/-- What stands at the pointer is the current cell. -/
theorem getElem?_pointer (tape : Tape) : tape.cells[tape.pointer]? = some tape.cell := by
  simp [cell, tape.pointer_lt]

/-- No action changes the number of cells. -/
@[simp] theorem length_act (tape : Tape) (action : Action) :
    (tape.act action).1.length = tape.length := by
  cases action <;> simp [act]

/-- What was logged before stands in front. -/
theorem actFrom_eq (logged : List Event) (tape : Tape) (actions : List Action) :
    tape.actFrom logged actions =
      ((tape.actAll actions).1, logged.reverse ++ (tape.actAll actions).2) := by
  unfold actAll
  induction actions generalizing logged tape with
  | nil => simp [actFrom]
  | cons action rest inductionHypothesis =>
      simp only [actFrom]
      rw [inductionHypothesis, inductionHypothesis (List.reverseAux _ [])]
      simp [List.reverseAux_eq]

@[simp] theorem actAll_nil (tape : Tape) : tape.actAll [] = (tape, []) := rfl

/-- The first of several actions comes first in the log. -/
theorem actAll_cons (tape : Tape) (action : Action) (rest : List Action) :
    tape.actAll (action :: rest) =
      (((tape.act action).1.actAll rest).1,
        (tape.act action).2 ++ ((tape.act action).1.actAll rest).2) := by
  have first : tape.actAll (action :: rest) =
      (tape.act action).1.actFrom ((tape.act action).2.reverseAux []) rest := rfl
  rw [first, actFrom_eq]
  simp [List.reverseAux_eq]

/-- A move to the right from any cell but the last logs nothing. -/
theorem moveRight_of_lt {tape : Tape} (inside : tape.pointer + 1 < tape.length) :
    tape.moveRight = (⟨tape.cells, tape.pointer + 1, inside⟩, []) := by
  unfold moveRight
  exact dif_neg (Nat.ne_of_lt inside)

/-- A move to the left from any cell but the first logs nothing. -/
theorem moveLeft_of_pos {tape : Tape} (inside : 0 < tape.pointer) :
    tape.moveLeft =
      (⟨tape.cells, tape.pointer - 1, Nat.lt_of_le_of_lt (Nat.sub_le _ _) tape.pointer_lt⟩, []) := by
  unfold moveLeft
  exact if_neg (Nat.ne_of_gt inside)

/-- A move to the right turns the ring by one place. -/
theorem pointer_moveRight (tape : Tape) :
    tape.moveRight.1.pointer = (tape.pointer + 1) % tape.length := by
  have inBounds := tape.pointer_lt
  unfold moveRight length
  split
  · rename_i last
    simp [last]
  · rw [Nat.mod_eq_of_lt (by omega)]

/-- A move to the left turns the ring back by one place. -/
theorem pointer_moveLeft (tape : Tape) :
    tape.moveLeft.1.pointer = (tape.pointer + (tape.length - 1)) % tape.length := by
  have inBounds := tape.pointer_lt
  unfold moveLeft length
  split
  · rename_i first
    rw [first, Nat.zero_add, Nat.mod_eq_of_lt (by omega)]
  · rw [show tape.pointer + (tape.cells.size - 1) = tape.pointer - 1 + tape.cells.size by omega,
      Nat.add_mod_right, Nat.mod_eq_of_lt (by omega)]

end Tape

end Brainfuck
