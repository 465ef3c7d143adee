import Brainfuck.CommandLine.Refusal

/-!
# Slots for values of options

An option may be given once. A value in a word of its own is held back and
looked at only when the reader has to come to a decision: at the next option,
at the first word that is no option, and at the end. Until then mistakes of
other words come first. A value attached to its option is looked at on the spot.
-/

namespace Brainfuck.CommandLine

/-- What has been read of an option and not yet been looked at. -/
inductive Pending where
  | nothing
  /-- The option was named and its value has not been read. -/
  | awaiting
  /-- The value was read. -/
  | holding (value : String)
  deriving DecidableEq, Repr

/-- How an option is named, and what its values mean. -/
structure Reading (α : Type) where
  setting : Setting
  read : String -> Except Refusal α

/-- The value of an option that has been looked at, and what is still pending. -/
structure Slot (α : Type) where
  settled? : Option α
  pending : Pending

namespace Slot

variable {α : Type}

/-- The slot of an option that has not been named. -/
def vacant : Slot α where
  settled? := none
  pending := .nothing

/-- Looks at a value: an option that has one already is repeated. -/
def accept (slot : Slot α) (reading : Reading α) (value : String) : Except Refusal (Slot α) :=
  match slot.settled? with
  | some _ => .error (.settingRepeated reading.setting)
  | none =>
      match reading.read value with
      | .error refusal => .error refusal
      | .ok meant => .ok ⟨some meant, .nothing⟩

/-- Looks at whatever is pending. -/
def settle (slot : Slot α) (reading : Reading α) : Except Refusal (Slot α) :=
  match slot.pending with
  | .nothing => .ok slot
  | .awaiting => .error (.valueMissing reading.setting)
  | .holding value => slot.accept reading value

/-- Takes in the name of the option, with the value attached to it if there is
one. What was pending before is looked at first. -/
def name (slot : Slot α) (reading : Reading α) (attached? : Option String) :
    Except Refusal (Slot α) :=
  match slot.settle reading, attached? with
  | .error refusal, _ => .error refusal
  | .ok settled, none => .ok ⟨settled.settled?, .awaiting⟩
  | .ok settled, some value => settled.accept reading value

/-- Refuses for a reason that was found later, unless what is pending is a
mistake itself. -/
def refuse {β : Type} (slot : Slot α) (reading : Reading α) (refusal : Refusal) :
    Except Refusal β :=
  match slot.settle reading with
  | .error earlier => .error earlier
  | .ok _ => .error refusal

/-- Holds a word back as the value of the option that was named last. -/
def hold (slot : Slot α) (value : String) : Slot α where
  settled? := slot.settled?
  pending := .holding value

@[simp] theorem settle_vacant (reading : Reading α) :
    (vacant : Slot α).settle reading = .ok vacant := rfl

end Slot

end Brainfuck.CommandLine
