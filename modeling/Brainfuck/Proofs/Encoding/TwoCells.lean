import Brainfuck.Machine.State

/-!
# Tapes of which two cells are used

An encoded text counts in the second cell and prints from the first. Such a tape
is given by two numbers and by the cell of the two where its pointer is, and the
commands change it as if the numbers had no bounds.
-/

namespace Brainfuck.Tape

/-- The tape whose first two cells hold these numbers and whose `room` other
cells are zero, with its pointer at one of the two. -/
def twoCells (room : Nat) (value counter : Int) (pointer : Fin 2) : Tape where
  cells := (Int64.ofInt value :: Int64.ofInt counter :: List.replicate room 0).toArray
  pointer := pointer
  pointer_lt := by
    have inBounds := pointer.isLt
    simp only [List.size_toArray, List.length_cons, List.length_replicate]
    omega

/-- A blank tape has two cells to use if it has two cells. -/
theorem blank_eq_twoCells (room : Nat) :
    blank (room + 2) (Nat.succ_pos (room + 1)) = twoCells room 0 0 0 := by
  ext1
  · apply Array.ext'
    simp [blank, twoCells, List.replicate_succ]
  · rfl

variable (room : Nat) (value counter : Int)

@[simp] theorem cell_twoCells_first :
    (twoCells room value counter 0).cell = Int64.ofInt value := rfl

@[simp] theorem cell_twoCells_second :
    (twoCells room value counter 1).cell = Int64.ofInt counter := rfl

/-- A number that is put into the first cell replaces the first number. -/
@[simp] theorem store_twoCells_first (number : Int) :
    (twoCells room value counter 0).store (Int64.ofInt number) =
      twoCells room number counter 0 := by
  ext1
  · apply Array.ext'
    simp [store, twoCells]
  · rfl

/-- A number that is put into the second cell replaces the second number. -/
@[simp] theorem store_twoCells_second (number : Int) :
    (twoCells room value counter 1).store (Int64.ofInt number) =
      twoCells room value number 1 := by
  ext1
  · apply Array.ext'
    simp [store, twoCells]
  · rfl

/-- From the first cell a move to the right leads to the second one. -/
@[simp] theorem moveRight_twoCells :
    (twoCells room value counter 0).moveRight = (twoCells room value counter 1, []) := by
  simp [moveRight, twoCells]

/-- From the second cell a move to the left leads to the first one. -/
@[simp] theorem moveLeft_twoCells :
    (twoCells room value counter 1).moveLeft = (twoCells room value counter 0, []) := by
  simp [moveLeft, twoCells]

end Brainfuck.Tape
