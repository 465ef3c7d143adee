import Brainfuck.Code.Grammar
import Brainfuck.Code.Validation

/-!
# The balanced language and its scan

The grammar speaks of partners, the scan keeps a depth. `Closes depth` stands
between them: it holds of the codes that close `depth` brackets opened before
and are balanced otherwise. A scan at that depth finds no fault in exactly those
codes, whatever it has read before.
-/

namespace Brainfuck

/-- A code that closes `depth` open brackets, with a balanced code in front of
each closing bracket and a balanced code at the end. -/
inductive Closes : Nat -> List Char -> Prop where
  | outside {code : List Char} (balanced : Balanced code) : Closes 0 code
  | inside {depth : Nat} {body outer : List Char} (balancedBody : Balanced body)
      (closesOuter : Closes depth outer) : Closes (depth + 1) (body ++ ']' :: outer)

/-- Outside of all brackets nothing is left to close. -/
theorem closes_zero_iff {code : List Char} : Closes 0 code ↔ Balanced code := by
  constructor
  · rintro ⟨balanced⟩
    exact balanced
  · exact .outside

/-- A code without brackets is balanced. -/
theorem balanced_of_no_bracket {code : List Char}
    (noBracket : ∀ character ∈ code, character ≠ '[' ∧ character ≠ ']') : Balanced code := by
  induction code with
  | nil => exact .empty
  | cons character rest inductionHypothesis =>
      obtain ⟨⟨notOpening, notClosing⟩, noBracketRest⟩ := List.forall_mem_cons.mp noBracket
      exact .other notOpening notClosing (inductionHypothesis noBracketRest)

/-- A balanced code in front closes nothing. -/
theorem Closes.prepend {depth : Nat} {front code : List Char} (balancedFront : Balanced front)
    (closes : Closes depth code) : Closes depth (front ++ code) := by
  cases closes with
  | outside balanced => exact .outside (balancedFront.append balanced)
  | inside balancedBody closesOuter =>
      rw [← List.append_assoc]
      exact .inside (balancedFront.append balancedBody) closesOuter

/-- Behind an opening bracket there is one bracket more to close; its partner
makes it a loop, which closes nothing. -/
theorem Closes.enclose {depth : Nat} {code : List Char} (closes : Closes (depth + 1) code) :
    Closes depth ('[' :: code) := by
  cases closes with
  | @inside _ body outer balancedBody closesOuter =>
      have loop : Balanced ('[' :: (body ++ [']'])) := .loop balancedBody .empty
      simpa using closesOuter.prepend loop

/-- A scan that finds no fault has closed every bracket that was open. -/
theorem closes_of_findFault_eq_none {position depth lastOpening : Nat} {code : List Char}
    (accepted : findFault position depth lastOpening code = none) : Closes depth code := by
  induction code generalizing position depth lastOpening with
  | nil =>
      cases depth with
      | zero => exact .outside .empty
      | succ depth => simp [findFault] at accepted
  | cons character rest inductionHypothesis =>
      cases read : Bracket.ofChar? character with
      | none =>
          rw [findFault_other read] at accepted
          obtain ⟨notOpening, notClosing⟩ := Bracket.ofChar?_eq_none_iff.mp read
          have alone : Balanced [character] := .other notOpening notClosing .empty
          exact (inductionHypothesis accepted).prepend alone
      | some bracket =>
          obtain rfl := Bracket.ofChar?_eq_some_iff.mp read
          cases bracket with
          | opening => exact (inductionHypothesis accepted).enclose
          | closing =>
              cases depth with
              | zero => simp [Bracket.toChar] at accepted
              | succ depth => exact .inside .empty (inductionHypothesis accepted)

/-- A scan comes out of a balanced code at the depth at which it went in. -/
theorem findFault_append_of_balanced {body : List Char} (balanced : Balanced body)
    (position depth lastOpening : Nat) (rest : List Char) :
    ∃ latest, findFault position depth lastOpening (body ++ rest) =
      findFault (position + body.length) depth latest rest := by
  induction balanced generalizing position depth lastOpening rest with
  | empty => exact ⟨lastOpening, rfl⟩
  | @other character code notOpening notClosing _ inductionHypothesis =>
      obtain ⟨latest, scanned⟩ := inductionHypothesis (position + 1) depth lastOpening rest
      have noBracket := Bracket.ofChar?_eq_none_iff.mpr ⟨notOpening, notClosing⟩
      refine ⟨latest, ?_⟩
      rw [List.cons_append, findFault_other noBracket, scanned, List.length_cons]
      congr 1
      omega
  | @loop inner behind _ _ innerHypothesis behindHypothesis =>
      obtain ⟨within, scannedInner⟩ :=
        innerHypothesis (position + 1) (depth + 1) position (']' :: (behind ++ rest))
      obtain ⟨latest, scannedBehind⟩ :=
        behindHypothesis (position + 1 + inner.length + 1) depth within rest
      refine ⟨latest, ?_⟩
      simp only [List.cons_append, List.append_assoc, findFault_opening, scannedInner,
        findFault_closing, scannedBehind, List.length_cons, List.length_append]
      congr 1
      omega

/-- A scan finds no fault in a code that closes what was open. -/
theorem Closes.findFault_eq_none {depth : Nat} {code : List Char} (closes : Closes depth code)
    (position lastOpening : Nat) : findFault position depth lastOpening code = none := by
  induction closes generalizing position lastOpening with
  | outside balanced =>
      obtain ⟨latest, scanned⟩ :=
        findFault_append_of_balanced balanced position 0 lastOpening []
      simpa using scanned
  | inside balancedBody _ inductionHypothesis =>
      obtain ⟨latest, scanned⟩ :=
        findFault_append_of_balanced balancedBody position (_ + 1) lastOpening (']' :: _)
      rw [scanned, findFault_closing]
      exact inductionHypothesis _ latest

/-- A scan from the first character finds no fault exactly in a balanced code. -/
theorem findFault_eq_none_iff_balanced {code : List Char} :
    findFault 0 0 0 code = none ↔ Balanced code := by
  rw [← closes_zero_iff]
  constructor
  · exact closes_of_findFault_eq_none
  · intro closes
    exact closes.findFault_eq_none 0 0

instance (code : List Char) : Decidable (Balanced code) :=
  decidable_of_iff (findFault 0 0 0 code = none) findFault_eq_none_iff_balanced

/-- Validation refuses no balanced code. -/
theorem Balanced.validate_eq_ok {code : List Char} (balanced : Balanced code) :
    validate code = .ok () :=
  validate_eq_ok_iff_findFault.mpr (findFault_eq_none_iff_balanced.mpr balanced)

/-- Validation accepts nothing but balanced codes. -/
theorem balanced_of_validate {code : List Char} (accepted : validate code = .ok ()) :
    Balanced code :=
  findFault_eq_none_iff_balanced.mp (validate_eq_ok_iff_findFault.mp accepted)

/-- Validation accepts exactly the balanced language: the depth counter with its
early exit and its final test decides membership in the grammar, for every code. -/
theorem validate_eq_ok_iff_balanced (code : List Char) :
    validate code = .ok () ↔ Balanced code := by
  constructor
  · exact balanced_of_validate
  · exact Balanced.validate_eq_ok

end Brainfuck
