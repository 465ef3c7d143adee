import Brainfuck.Code.Fault
import Brainfuck.Text.Quoted

/-!
# Validation

One scan of the code keeps the depth of open brackets and the position of the
last opening bracket. It stops at the first closing bracket that nothing opened;
at the end of the code a positive depth is reported at the last opening bracket,
matched or not.
-/

namespace Brainfuck

/-- The bracket at which a scan finds fault, with its position. The scan has
read `position` characters, `depth` brackets are open, and the last opening
bracket stood at `lastOpening`. -/
def findFault (position depth lastOpening : Nat) : List Char -> Option (Bracket × Nat)
  | [] =>
      match depth with
      | 0 => none
      | _ + 1 => some (.opening, lastOpening)
  | character :: rest =>
      match Bracket.ofChar? character with
      | none => findFault (position + 1) depth lastOpening rest
      | some .opening => findFault (position + 1) (depth + 1) position rest
      | some .closing =>
          match depth with
          | 0 => some (.closing, position)
          | outerDepth + 1 => findFault (position + 1) outerDepth lastOpening rest

@[simp] theorem findFault_nil (position lastOpening : Nat) :
    findFault position 0 lastOpening [] = none := rfl

/-- A character that is no bracket is passed over. -/
theorem findFault_other {character : Char} (noBracket : Bracket.ofChar? character = none)
    (position depth lastOpening : Nat) (rest : List Char) :
    findFault position depth lastOpening (character :: rest) =
      findFault (position + 1) depth lastOpening rest := by
  simp [findFault, noBracket]

@[simp] theorem findFault_opening (position depth lastOpening : Nat) (rest : List Char) :
    findFault position depth lastOpening ('[' :: rest) =
      findFault (position + 1) (depth + 1) position rest := rfl

@[simp] theorem findFault_closing (position depth lastOpening : Nat) (rest : List Char) :
    findFault position (depth + 1) lastOpening (']' :: rest) =
      findFault (position + 1) depth lastOpening rest := rfl

@[simp] theorem findFault_closing_zero (position lastOpening : Nat) (rest : List Char) :
    findFault position 0 lastOpening (']' :: rest) = some (.closing, position) := rfl

/-- Accepts a code in which every bracket has its partner. -/
def validate (code : List Char) : Except Fault Unit :=
  match findFault 0 0 0 code with
  | none => .ok ()
  | some (bracket, position) => .error (Fault.ofCode code bracket position)

/-- A code is accepted exactly when the scan of it finds no fault. -/
theorem validate_eq_ok_iff_findFault {code : List Char} :
    validate code = .ok () ↔ findFault 0 0 0 code = none := by
  unfold validate
  cases findFault 0 0 0 code with
  | none => simp
  | some found => simp

/-- What a check of a code reports: nothing, or why the code is malformed. -/
structure Report where
  reason? : Option String
  deriving DecidableEq, Repr

namespace Report

/-- A code is valid when there is no reason against it. -/
def valid (report : Report) : Bool :=
  report.reason?.isNone

/-- The report as an object of two members, `valid` before `reason`. -/
def json (report : Report) : String :=
  match report.reason? with
  | none => "\x7b\"valid\":true,\"reason\":null\x7d"
  | some reason =>
      "\x7b\"valid\":false,\"reason\":" ++ String.ofList (Text.Quoted.quote reason.toList) ++ "\x7d"

end Report

/-- Validates a code and reports the fault in words. -/
def check (code : List Char) : Report where
  reason? :=
    match validate code with
    | .ok () => none
    | .error fault => some fault.message

/-- A check finds a code valid exactly when validation accepts it. -/
theorem check_valid_iff {code : List Char} :
    (check code).valid = true ↔ validate code = .ok () := by
  unfold check Report.valid
  cases validate code with
  | ok => simp
  | error fault => simp

end Brainfuck
