/-!
# Faults of a code

A code is malformed when one of its brackets has no partner. The fault names
the bracket that is reported, its position counted in characters, and a short
excerpt of the code around it.
-/

namespace Brainfuck

/-- The two brackets that delimit a loop. -/
inductive Bracket where
  | opening
  | closing
  deriving DecidableEq, Repr

/-- The character that writes a bracket. -/
def Bracket.toChar : Bracket -> Char
  | .opening => '['
  | .closing => ']'

/-- The bracket that a character writes, if it writes one. -/
def Bracket.ofChar? : Char -> Option Bracket
  | '[' => some .opening
  | ']' => some .closing
  | _ => none

/-- A character is read as a bracket exactly when it writes that bracket. -/
theorem Bracket.ofChar?_eq_some_iff {character : Char} {bracket : Bracket} :
    Bracket.ofChar? character = some bracket ↔ character = bracket.toChar := by
  constructor
  · intro read
    unfold Bracket.ofChar? at read
    split at read <;> cases read <;> rfl
  · rintro rfl
    cases bracket <;> rfl

@[simp] theorem Bracket.ofChar?_toChar (bracket : Bracket) :
    Bracket.ofChar? bracket.toChar = some bracket :=
  Bracket.ofChar?_eq_some_iff.mpr rfl

/-- A character writes no bracket exactly when it differs from both. -/
theorem Bracket.ofChar?_eq_none_iff {character : Char} :
    Bracket.ofChar? character = none ↔ character ≠ '[' ∧ character ≠ ']' := by
  constructor
  · intro read
    constructor <;> rintro rfl <;> simp [Bracket.ofChar?] at read
  · rintro ⟨notOpening, notClosing⟩
    unfold Bracket.ofChar?
    split
    · exact absurd rfl notOpening
    · exact absurd rfl notClosing
    · rfl

/-- An unmatched bracket, where it stands, and the code around it. -/
structure Fault where
  bracket : Bracket
  position : Nat
  excerpt : List Char
  deriving DecidableEq, Repr

namespace Fault

/-- At most this many characters of an excerpt stand before the bracket. -/
def leadingContext : Nat := 5

/-- An excerpt has at most this many characters. -/
def excerptLength : Nat := 11

/-- The part of a code that is shown with a bracket at `position`. -/
def excerptAt (code : List Char) (position : Nat) : List Char :=
  (code.drop (position - leadingContext)).take excerptLength

/-- The fault of a code whose unmatched bracket stands at `position`. -/
def ofCode (code : List Char) (bracket : Bracket) (position : Nat) : Fault where
  bracket := bracket
  position := position
  excerpt := excerptAt code position

/-- The sentence that reports a fault. -/
def message (fault : Fault) : String :=
  "Unmatched " ++ String.singleton fault.bracket.toChar ++ " at position " ++
    toString fault.position ++ ": " ++ String.ofList fault.excerpt

end Fault

end Brainfuck
