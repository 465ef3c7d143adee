import Brainfuck.Machine.Tape
import Mathlib.Algebra.Ring.Int.Defs

/-!
# Winding round the ring

The `deeds` of a tape are its actions, each with the tape that it finds. They tell two
things about the tape in the end. A cell holds what the last of them stored that found the
pointer there. And the pointer is where as many moves lead as there are more to the right
than to the left, less one whole turn for every message of a wrap to the right and plus one
for every message of a wrap to the left: the log counts how often the moves wind round the
ring. `accounted_blank` puts this together for a blank tape, with what each message says.
-/

namespace Brainfuck.Tape

/-- An action, and the tape that it finds. -/
structure Deed where
  before : Tape
  action : Action

namespace Deed

/-- The tape that an action leaves. -/
def after (deed : Deed) : Tape :=
  (deed.before.act deed.action).1

/-- What an action logs. -/
def events (deed : Deed) : List Event :=
  (deed.before.act deed.action).2

/-- The value that is stored at a place, if the action stores one there. -/
def stored? (place : Nat) (deed : Deed) : Option Cell :=
  match deed.action with
  | .store value => if deed.before.pointer = place then some value else none
  | _ => none

end Deed

/-- The actions on a tape in order, each with the tape that the one before has left. -/
def deeds (tape : Tape) : List Action -> List Deed
  | [] => []
  | action :: rest => ⟨tape, action⟩ :: (tape.act action).1.deeds rest

/-- The number of messages that were logged by the deeds of one kind. -/
def messages (action : Action) (deeds : List Deed) : Nat :=
  ((deeds.filter fun deed => deed.action = action).flatMap Deed.events).length

/-- What an action says about the ring of so many cells in the log. A move logs a message
exactly when the pointer does not change by one in its direction; the message names the
place that the pointer has left and the one that it has come to, which are the two ends of
the ring, and nothing else is logged. On a ring of one cell every move logs a message. -/
structure Deed.Reported (length : Nat) (deed : Deed) : Prop where
  right : deed.action = .moveRight ->
    (deed.events ≠ [] ↔ deed.after.pointer ≠ deed.before.pointer + 1)
  left : deed.action = .moveLeft ->
    (deed.events ≠ [] ↔ deed.after.pointer + 1 ≠ deed.before.pointer)
  ends : deed.events ≠ [] ->
    deed.action = .moveRight ∧ deed.before.pointer = length - 1 ∧ deed.after.pointer = 0 ∨
      deed.action = .moveLeft ∧ deed.before.pointer = 0 ∧ deed.after.pointer = length - 1
  names : deed.events ≠ [] ->
    deed.events = [.pointerWrapped deed.before.pointer deed.after.pointer] ∧
      deed.events.map Event.message = ["pointer wrapped " ++ toString deed.before.pointer ++
        " -> " ++ toString deed.after.pointer]
  oneCell : length = 1 -> deed.action = .moveRight ∨ deed.action = .moveLeft ->
    deed.events = [.pointerWrapped 0 0]

/-- What the actions on a tape of zeros with its pointer at the first cell come to. -/
structure Accounted (tape : Tape) (actions : List Action) : Prop where
  actions_eq : (tape.deeds actions).map Deed.action = actions
  log : (tape.actAll actions).2 = (tape.deeds actions).flatMap Deed.events
  length : (tape.actAll actions).1.length = tape.length
  cells : ∀ place, place < tape.length -> (tape.actAll actions).1.cells[place]? =
    some (((tape.deeds actions).filterMap (Deed.stored? place)).getLast?.getD 0)
  winding : (actions.count .moveRight : Int) - actions.count .moveLeft =
    (tape.actAll actions).1.pointer + tape.length *
      (messages .moveRight (tape.deeds actions) - messages .moveLeft (tape.deeds actions))
  pointer_lt : (tape.actAll actions).1.pointer < tape.length
  reported : ∀ deed ∈ tape.deeds actions, deed.Reported tape.length

/-- A move to the right goes on by one place in silence, or wraps and says so. -/
theorem moveRight_cases (tape : Tape) :
    (tape.pointer + 1 < tape.length ∧ tape.moveRight.1.pointer = tape.pointer + 1 ∧
        tape.moveRight.2 = []) ∨
      (tape.pointer + 1 = tape.length ∧ tape.moveRight.1.pointer = 0 ∧
        tape.moveRight.2 = [.pointerWrapped tape.pointer tape.moveRight.1.pointer]) := by
  have inBounds := tape.pointer_lt
  unfold moveRight
  split
  · rename_i last
    exact .inr ⟨last, rfl, rfl⟩
  · rename_i inside
    exact .inl ⟨Nat.lt_of_le_of_ne inBounds inside, rfl, rfl⟩

/-- A move to the left goes back by one place in silence, or wraps and says so. -/
theorem moveLeft_cases (tape : Tape) :
    (tape.moveLeft.1.pointer + 1 = tape.pointer ∧ tape.moveLeft.2 = []) ∨
      (tape.pointer = 0 ∧ tape.moveLeft.1.pointer + 1 = tape.length ∧
        tape.moveLeft.2 = [.pointerWrapped tape.pointer tape.moveLeft.1.pointer]) := by
  have inBounds := tape.pointer_lt
  unfold moveLeft
  split
  · rename_i first
    refine .inr ⟨first, ?_, by rw [first]⟩
    unfold length
    dsimp only
    omega
  · refine .inl ⟨?_, rfl⟩
    dsimp only
    omega

namespace Deed.Reported

variable {length : Nat} {deed : Deed}

/-- An action that logs nothing: a move by one place in its direction, or no move. -/
theorem of_silent (silent : deed.events = [])
    (right : deed.action = .moveRight ->
      deed.before.pointer + 1 < length ∧ deed.after.pointer = deed.before.pointer + 1)
    (left : deed.action = .moveLeft -> deed.before.pointer < length ∧
      deed.after.pointer + 1 = deed.before.pointer) : deed.Reported length where
  right isRight := by simp [silent, right isRight]
  left isLeft := by simp [silent, left isLeft]
  ends loud := absurd silent loud
  names loud := absurd silent loud
  oneCell single isMove := by
    rcases isMove with isRight | isLeft
    · have inside := (right isRight).1
      omega
    · obtain ⟨inBounds, back⟩ := left isLeft
      omega

/-- A move over an end of the ring, with its message. -/
theorem of_wrapped
    (wrapped : deed.events = [.pointerWrapped deed.before.pointer deed.after.pointer])
    (ends : deed.action = .moveRight ∧ deed.before.pointer + 1 = length ∧
        deed.after.pointer = 0 ∨
      deed.action = .moveLeft ∧ deed.before.pointer = 0 ∧ deed.after.pointer + 1 = length) :
    deed.Reported length where
  right isRight := by
    have loud : deed.events ≠ [] := by simp [wrapped]
    refine iff_of_true loud ?_
    rcases ends with ⟨-, -, first⟩ | ⟨isLeft, -⟩
    · omega
    · cases isRight.symm.trans isLeft
  left isLeft := by
    have loud : deed.events ≠ [] := by simp [wrapped]
    refine iff_of_true loud ?_
    rcases ends with ⟨isRight, -⟩ | ⟨-, first, -⟩
    · cases isLeft.symm.trans isRight
    · omega
  ends _ := by
    rcases ends with ⟨isRight, last, first⟩ | ⟨isLeft, first, last⟩
    · exact .inl ⟨isRight, by omega, first⟩
    · exact .inr ⟨isLeft, first, by omega⟩
  names _ := by
    refine ⟨wrapped, ?_⟩
    rw [wrapped]
    rfl
  oneCell single _ := by
    have places : deed.before.pointer = 0 ∧ deed.after.pointer = 0 := by omega
    rw [wrapped, places.1, places.2]

end Deed.Reported

/-- Every action says in the log what it should. -/
theorem Deed.reported (deed : Deed) : deed.Reported deed.before.length := by
  rcases deed with ⟨tape, _ | _ | value⟩
  · rcases tape.moveRight_cases with ⟨inside, onward, silent⟩ | ⟨last, first, wrapped⟩
    · exact .of_silent silent (fun _ => ⟨inside, onward⟩) (fun isLeft => nomatch isLeft)
    · exact .of_wrapped wrapped (.inl ⟨rfl, last, first⟩)
  · rcases tape.moveLeft_cases with ⟨back, silent⟩ | ⟨first, last, wrapped⟩
    · exact .of_silent silent (fun isRight => nomatch isRight) (fun _ => ⟨tape.pointer_lt, back⟩)
    · exact .of_wrapped wrapped (.inr ⟨rfl, first, last⟩)
  · exact .of_silent rfl (fun isRight => nomatch isRight) (fun isLeft => nomatch isLeft)

/-- The deeds of a tape are its actions. -/
theorem map_action_deeds (tape : Tape) (actions : List Action) :
    (tape.deeds actions).map Deed.action = actions := by
  induction actions generalizing tape with
  | nil => rfl
  | cons action rest inductionHypothesis =>
      rw [deeds, List.map_cons, inductionHypothesis]

/-- What is logged is what the deeds have logged. -/
theorem log_actAll (tape : Tape) (actions : List Action) :
    (tape.actAll actions).2 = (tape.deeds actions).flatMap Deed.events := by
  induction actions generalizing tape with
  | nil => rfl
  | cons action rest inductionHypothesis =>
      rw [actAll_cons, deeds, List.flatMap_cons, ← inductionHypothesis]
      rfl

/-- No series of actions changes the number of cells. -/
theorem length_actAll (tape : Tape) (actions : List Action) :
    (tape.actAll actions).1.length = tape.length := by
  induction actions generalizing tape with
  | nil => rfl
  | cons action rest inductionHypothesis =>
      rw [actAll_cons, inductionHypothesis, length_act]

/-- Each deed finds a tape of the same length, and says in the log what it should. -/
theorem reported_of_mem_deeds {tape : Tape} {actions : List Action} {deed : Deed}
    (isDeed : deed ∈ tape.deeds actions) : deed.Reported tape.length := by
  induction actions generalizing tape with
  | nil => cases isDeed
  | cons action rest inductionHypothesis =>
      rcases List.mem_cons.mp isDeed with rfl | isLater
      · exact Deed.reported ⟨tape, action⟩
      · have later := inductionHypothesis isLater
        rwa [length_act] at later

/-- An action changes a cell only by storing a value at its place. -/
theorem getElem?_act (tape : Tape) (action : Action) (place : Nat) :
    (tape.act action).1.cells[place]? =
      tape.cells[place]?.map fun cell => ((Deed.mk tape action).stored? place).getD cell := by
  cases action with
  | moveRight => simp [act, Deed.stored?]
  | moveLeft => simp [act, Deed.stored?]
  | store value =>
      by_cases here : tape.pointer = place
      · subst here
        have stored := (tape.store value).getElem?_pointer
        rw [pointer_store, cell_store] at stored
        simp [act, Deed.stored?, stored, getElem?_pointer]
      · simp [act, Deed.stored?, store, here]

/-- A cell holds what was stored last with the pointer at its place. -/
theorem getElem?_actAll (tape : Tape) (actions : List Action) (place : Nat) :
    (tape.actAll actions).1.cells[place]? =
      tape.cells[place]?.map fun cell =>
        ((tape.deeds actions).filterMap (Deed.stored? place)).getLast?.getD cell := by
  induction actions generalizing tape with
  | nil => simp [deeds]
  | cons action rest inductionHypothesis =>
      rw [actAll_cons, inductionHypothesis, getElem?_act, Option.map_map, deeds]
      congr 1
      funext cell
      cases stored : (Deed.mk tape action).stored? place with
      | none => simp [stored]
      | some value => simp [stored, List.getLast?_cons]

/-- By how many places an action would lead to the right if the ring had no ends. -/
def Action.direction : Action -> Int
  | .moveRight => 1
  | .moveLeft => -1
  | .store _ => 0

/-- The turns of the ring that the messages of an action stand for. -/
def Deed.turns (deed : Deed) : Int :=
  deed.action.direction * deed.events.length

/-- The directions of some actions add up to the moves to the right less those to the
left. -/
theorem sum_direction (actions : List Action) :
    (actions.map Action.direction).sum =
      (actions.count .moveRight : Int) - actions.count .moveLeft := by
  induction actions with
  | nil => rfl
  | cons action rest inductionHypothesis =>
      rw [List.map_cons, List.sum_cons, inductionHypothesis]
      cases action <;> simp [Action.direction] <;> omega

/-- The turns of some deeds add up to the messages of wraps to the right less those of
wraps to the left. -/
theorem sum_turns (deeds : List Deed) :
    (deeds.map Deed.turns).sum = (messages .moveRight deeds : Int) - messages .moveLeft deeds := by
  induction deeds with
  | nil => rfl
  | cons deed later inductionHypothesis =>
      rw [List.map_cons, List.sum_cons, inductionHypothesis]
      rcases deed with ⟨tape, _ | _ | value⟩ <;>
        simp [messages, Deed.turns, Action.direction] <;> omega

/-- An action leads by one place in its direction, less the turns of the ring that it has
reported. -/
theorem direction_eq (tape : Tape) (action : Action) :
    action.direction = (tape.act action).1.pointer - tape.pointer +
      tape.length * (Deed.mk tape action).turns := by
  cases action with
  | moveRight =>
      show (1 : Int) = tape.moveRight.1.pointer - tape.pointer +
        tape.length * (1 * tape.moveRight.2.length)
      rcases tape.moveRight_cases with ⟨-, onward, silent⟩ | ⟨last, first, wrapped⟩
      · rw [onward, silent, List.length_nil]
        omega
      · rw [wrapped, first, List.length_singleton]
        omega
  | moveLeft =>
      show (-1 : Int) = tape.moveLeft.1.pointer - tape.pointer +
        tape.length * (-1 * tape.moveLeft.2.length)
      rcases tape.moveLeft_cases with ⟨back, silent⟩ | ⟨first, last, wrapped⟩
      · rw [← back, silent, List.length_nil]
        omega
      · rw [wrapped, first, ← last, List.length_singleton]
        omega
  | store value =>
      show (0 : Int) = tape.pointer - tape.pointer + tape.length * (0 * 0)
      omega

/-- The directions of the actions lead to where the pointer is, less the turns of the ring
that were reported on the way. -/
theorem sum_direction_eq (tape : Tape) (actions : List Action) :
    (actions.map Action.direction).sum = (tape.actAll actions).1.pointer - tape.pointer +
      tape.length * ((tape.deeds actions).map Deed.turns).sum := by
  induction actions generalizing tape with
  | nil => simp [deeds]
  | cons action rest inductionHypothesis =>
      have onward := inductionHypothesis (tape.act action).1
      rw [length_act] at onward
      rw [actAll_cons, deeds, List.map_cons, List.sum_cons, List.map_cons, List.sum_cons,
        tape.direction_eq action, onward, Int.mul_add]
      dsimp only
      omega

/-- On a tape of zeros of any length, whatever is done to it: each cell holds what was
stored last with the pointer at its place, and the moves, the pointer and the messages of
the log account for each other. -/
theorem accounted_blank (length : Nat) (positive : 0 < length) (actions : List Action) :
    (blank length positive).Accounted actions where
  actions_eq := map_action_deeds _ actions
  log := log_actAll _ actions
  length := length_actAll _ actions
  cells place inside := by
    have within : place < length := by simpa [blank, Tape.length] using inside
    rw [getElem?_actAll]
    simp [blank, within]
  winding := by
    have winding := sum_direction_eq (blank length positive) actions
    rw [sum_direction, sum_turns] at winding
    simpa [blank] using winding
  pointer_lt := by
    have inBounds := ((blank length positive).actAll actions).1.pointer_lt
    rwa [← length_actAll _ actions]
  reported _ isDeed := reported_of_mem_deeds isDeed

/-- A ring of two cells: two wraps to the left, one to the right, and three values of which
one is stored over another. -/
theorem accounted_blank_twoCells :
    0 < 2 ∧ (blank 2 (by decide)).Accounted
      [.moveLeft, .store 5, .moveRight, .store (-1), .store 7, .moveLeft] :=
  ⟨by decide, accounted_blank 2 (by decide) _⟩

end Brainfuck.Tape
