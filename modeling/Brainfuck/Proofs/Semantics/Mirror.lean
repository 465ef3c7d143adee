import Brainfuck.Proofs.Semantics.Resemblance

/-!
# The ring seen from behind

A tape is a ring, so left and right are only names. Exchange them in a code, and the ring
that it runs on is the mirror image of the old one, turned over about its first cell: what
stood at a place stands at the `opposite` one. A move over an end need not be one in the
mirror image, so the two differ in what they log about the pointer; all else is in accord,
`mirrored_inAccord`.
-/

namespace Brainfuck

/-- A character with the two moves exchanged. -/
def mirroredChar : Char -> Char
  | '>' => '<'
  | '<' => '>'
  | character => character

/-- A code in which every `>` is a `<` and every `<` is a `>`. -/
def mirrored (code : List Char) : List Char :=
  code.map mirroredChar

/-- The command that moves the other way, or the same command if it does not move. -/
def Command.mirrored : Command -> Command
  | .moveRight => .moveLeft
  | .moveLeft => .moveRight
  | action => action

/-- Characters are exchanged as the commands are that they write. -/
theorem mirroredChar_eq (character : Char) :
    mirroredChar character = exchangedChar Command.mirrored character := by
  cases means : Symbol.ofChar? character with
  | none =>
      rw [exchangedChar_comment means]
      unfold mirroredChar
      split
      · simp [Symbol.ofChar?] at means
      · simp [Symbol.ofChar?] at means
      · rfl
  | some symbol =>
      obtain rfl := Symbol.ofChar?_eq_some_iff.mp means
      cases symbol with
      | command action => cases action <;> rfl
      | bracket side => cases side <;> rfl

/-- A mirrored code has mirrored commands. -/
theorem mirrored_eq_exchanged (code : List Char) :
    mirrored code = exchanged Command.mirrored code := by
  rw [mirrored, exchanged, funext mirroredChar_eq]

/-- The place that is as far from the first one the other way round. -/
def opposite (length place : Nat) : Nat :=
  (length - place) % length

/-- Opposite places make up a whole round, unless both are the first. -/
theorem opposite_eq_iff {length place other : Nat} (inside : place < length)
    (otherInside : other < length) :
    opposite length place = other ↔ place + other = length ∨ place = 0 ∧ other = 0 := by
  unfold opposite
  cases place with
  | zero =>
      rw [Nat.sub_zero, Nat.mod_self]
      omega
  | succ place =>
      rw [Nat.mod_eq_of_lt (by omega)]
      omega

/-- On a ring there is an opposite place. -/
theorem opposite_lt {length place : Nat} (inside : place < length) :
    opposite length place < length :=
  Nat.mod_lt _ (Nat.lt_of_le_of_lt (Nat.zero_le _) inside)

/-- Each of two opposite places is opposite to the other. -/
theorem opposite_eq_comm {length place other : Nat} (inside : place < length)
    (otherInside : other < length) :
    opposite length place = other ↔ opposite length other = place := by
  rw [opposite_eq_iff inside otherInside, opposite_eq_iff otherInside inside]
  omega

/-- The place opposite to the opposite one is the place itself. -/
theorem opposite_opposite {length place : Nat} (inside : place < length) :
    opposite length (opposite length place) = place :=
  (opposite_eq_comm inside (opposite_lt inside)).mp rfl

/-- Two tapes of this length of which one is the mirror image of the other: their pointers
stand at opposite places, and each cell of the one is the opposite cell of the other. -/
structure Tape.Mirrors (length : Nat) (left right : Tape) : Prop where
  lengthLeft : left.length = length
  lengthRight : right.length = length
  pointer : right.pointer = opposite length left.pointer
  cells : ∀ place, place < length -> right.cells[opposite length place]? = left.cells[place]?

namespace Tape.Mirrors

variable {length : Nat} {left right : Tape}

/-- A blank tape is its own mirror image. -/
theorem blank (positive : 0 < length) :
    Mirrors length (Tape.blank length positive) (Tape.blank length positive) where
  lengthLeft := Array.size_replicate
  lengthRight := Array.size_replicate
  pointer := ((opposite_eq_iff positive positive).mpr (.inr ⟨rfl, rfl⟩)).symm
  cells place inside := by
    simp [Tape.blank, inside, opposite_lt inside]

/-- The pointer of the left tape is on a ring of this length. -/
theorem pointer_lt (mirrors : Mirrors length left right) : left.pointer < length :=
  mirrors.lengthLeft ▸ left.pointer_lt

/-- The mirror image of the mirror image is the tape. -/
theorem symm (mirrors : Mirrors length left right) : Mirrors length right left where
  lengthLeft := mirrors.lengthRight
  lengthRight := mirrors.lengthLeft
  pointer := by rw [mirrors.pointer, opposite_opposite mirrors.pointer_lt]
  cells place inside := by
    have there := mirrors.cells _ (opposite_lt inside)
    rw [opposite_opposite inside] at there
    exact there.symm

/-- The pointers show the same value, and what is stored there is stored in opposite
cells. -/
theorem congruence : Tape.Congruence (Mirrors length) where
  cell {left right} mirrors := by
    have here := mirrors.cells left.pointer mirrors.pointer_lt
    rw [← mirrors.pointer, left.getElem?_pointer, right.getElem?_pointer] at here
    exact (Option.some.inj here).symm
  store {left right} value mirrors := by
    refine ⟨(left.length_store value).trans mirrors.lengthLeft,
      (right.length_store value).trans mirrors.lengthRight, mirrors.pointer, ?_⟩
    intro place inside
    have sameCell : right.pointer = opposite length place ↔ left.pointer = place := by
      rw [mirrors.pointer, opposite_eq_comm mirrors.pointer_lt (opposite_lt inside),
        opposite_opposite inside, eq_comm]
    simp only [store, Array.getElem?_set, sameCell, mirrors.cells place inside]

/-- A move to the right is the mirror image of a move to the left. -/
theorem moveRight (mirrors : Mirrors length left right) :
    Mirrors length left.moveRight.1 right.moveLeft.1 where
  lengthLeft := left.length_moveRight.trans mirrors.lengthLeft
  lengthRight := right.length_moveLeft.trans mirrors.lengthRight
  pointer := by
    have sizeLeft : left.cells.size = length := mirrors.lengthLeft
    have sizeRight : right.cells.size = length := mirrors.lengthRight
    have here := mirrors.pointer_lt
    have round := (opposite_eq_iff here mirrors.symm.pointer_lt).mp mirrors.pointer.symm
    have inside : left.moveRight.1.pointer < length :=
      mirrors.lengthLeft ▸ left.length_moveRight ▸ left.moveRight.1.pointer_lt
    have insideRight : right.moveLeft.1.pointer < length :=
      mirrors.lengthRight ▸ right.length_moveLeft ▸ right.moveLeft.1.pointer_lt
    refine ((opposite_eq_iff inside insideRight).mpr ?_).symm
    -- Either move may go over an end; both do so on a ring of one cell only.
    unfold Tape.moveRight Tape.moveLeft
    split <;> split <;> dsimp only <;> omega
  cells := by
    rw [left.cells_moveRight, right.cells_moveLeft]
    exact mirrors.cells

/-- A move to the left is the mirror image of a move to the right. -/
theorem moveLeft (mirrors : Mirrors length left right) :
    Mirrors length left.moveLeft.1 right.moveRight.1 :=
  mirrors.symm.moveRight.symm

end Tape.Mirrors

/-- Whether an event is that the pointer went over an end. -/
def Event.isWrap : Event -> Bool
  | .pointerWrapped .. => true
  | _ => false

/-- A move to the right logs nothing but that it went over an end. -/
theorem Tape.filter_moveRight (tape : Tape) :
    tape.moveRight.2.filter (fun event => !event.isWrap) = [] := by
  unfold moveRight
  split <;> rfl

/-- A move to the left logs nothing but that it went over an end. -/
theorem Tape.filter_moveLeft (tape : Tape) :
    tape.moveLeft.2.filter (fun event => !event.isWrap) = [] := by
  unfold moveLeft
  split <;> rfl

variable {σ τ : Type} [Source σ] [Sink τ]

/-- A command does to a state what the mirrored one does to the mirror image. -/
theorem State.Resembles.perform_mirrored {length : Nat} {left right : State σ τ}
    (resembles : State.Resembles (Tape.Mirrors length) left right) (command : Command) :
    (left.perform command).Accords (fun event => !event.isWrap)
      (State.Resembles (Tape.Mirrors length)) (right.perform command.mirrored) := by
  cases command with
  | moveRight =>
      have sameEvents := left.tape.filter_moveRight.trans right.tape.filter_moveLeft.symm
      exact ⟨rfl, sameEvents, resembles.tape.moveRight, resembles.source, resembles.sink⟩
  | moveLeft =>
      have sameEvents := left.tape.filter_moveLeft.trans right.tape.filter_moveRight.symm
      exact ⟨rfl, sameEvents, resembles.tape.moveLeft, resembles.source, resembles.sink⟩
  | increment | decrement | output | input =>
      exact resembles.perform_accords Tape.Mirrors.congruence rfl

/-- A machine of a program and one of the mirrored program on the mirror image are in
accord for ever. -/
theorem Machine.accord_mirrors (program : Program) (length : Nat) :
    Stepper.Accord (stepper program : Stepper (Machine σ τ))
      (stepper (program.exchanged Command.mirrored)) Stepper.anywhere
      (fun event => !event.isWrap) (Aligned (State.Resembles (Tape.Mirrors length))) :=
  accord_of_perform Tape.Mirrors.congruence fun resembles _ _ => resembles.perform_mirrored _

/-- Right and left are interchangeable. For every balanced code, every length of the tape,
every source and every sink: the mirrored code is balanced, and at every moment the two
machines stand at the same place with the same source and the same sink, their pointers at
opposite places of the ring and each cell of the one equal to the opposite cell of the
other. All steps and runs from there fail or finish alike, count alike, and log alike but
for moves over an end of the tape. -/
theorem mirrored_inAccord {code : List Char} (balanced : Balanced code) {length : Nat}
    (positive : 0 < length) (source : σ) (sink : τ) :
    Balanced (mirrored code) ∧ ∃ interpreter image : Interpreter σ τ,
      Interpreter.build code (Tape.blank length positive) source sink = .ok interpreter ∧
      Interpreter.build (mirrored code) (Tape.blank length positive) source sink = .ok image ∧
      interpreter.InAccord image Stepper.anywhere (fun event => !event.isWrap)
        (Machine.Aligned (State.Resembles (Tape.Mirrors length))) := by
  obtain ⟨block, rfl⟩ := balanced.exists_block
  have parsed : Program.parse (mirrored block.code) =
      .ok ((Program.ofBlock block).exchanged Command.mirrored) := by
    rw [mirrored_eq_exchanged]
    exact Program.parse_exchanged block.parse_code
  refine ⟨balanced_of_validate (Program.parse_eq_ok_iff.mp parsed).1, _, _,
    Interpreter.build_of_parse block.parse_code _ source sink,
    Interpreter.build_of_parse parsed _ source sink, ?_⟩
  apply Interpreter.inAccord_of_accord (Machine.accord_mirrors (Program.ofBlock block) length)
  exact ⟨rfl, Tape.Mirrors.blank positive, rfl, rfl⟩

/-- A code that goes over the left end at once, and its mirror image, on three cells and
between a source and a writer that fail. -/
theorem mirrored_inAccord_threeCells :
    Balanced ['<', ',', '[', '>', '.', ']'] ∧ 0 < 3 ∧
      ∃ interpreter image,
        Interpreter.build ['<', ',', '[', '>', '.', ']'] (Tape.blank 3 (by decide))
            (CellScript.mk [.error ⟨.other, ""⟩, .ok 2])
            (Stream.fresh (WriteScript.mk [.failure ⟨.brokenPipe, ""⟩, .upTo 0] []) .utf8) =
          .ok interpreter ∧
        Interpreter.build ['>', ',', '[', '<', '.', ']'] (Tape.blank 3 (by decide))
            (CellScript.mk [.error ⟨.other, ""⟩, .ok 2])
            (Stream.fresh (WriteScript.mk [.failure ⟨.brokenPipe, ""⟩, .upTo 0] []) .utf8) =
          .ok image ∧
        interpreter.InAccord image Stepper.anywhere (fun event => !event.isWrap)
          (Machine.Aligned (State.Resembles (Tape.Mirrors 3))) :=
  ⟨by decide, by decide, (mirrored_inAccord (by decide) (by decide) _ _).2⟩

end Brainfuck
