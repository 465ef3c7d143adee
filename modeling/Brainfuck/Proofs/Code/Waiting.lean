import Brainfuck.Code.Program
import Brainfuck.Proofs.Code.Tree

/-!
# Brackets that wait for their partners

What holds of a compilation at every moment, whatever has been read:
`Compilation.Sound` says that each bracket that waits is written for its own
place, and that the innermost of them stands furthest on. The validating scan
goes over all characters and the compilation over those with a meaning, but both
keep the same depth, so that a closing bracket of a valid code always finds
somebody waiting for it.
-/

namespace Brainfuck.Compilation

/-- The brackets that wait are written for their own places, the innermost one
furthest on. -/
structure Sound (compilation : Compilation) : Prop where
  placeholders : ∀ opening ∈ compilation.waiting,
    compilation.written[opening]? = some (.loopBegin opening)
  descending : compilation.waiting.Pairwise (· > ·)

theorem sound_empty : Sound empty where
  placeholders := by simp [empty]
  descending := .nil

/-- A bracket that waits stands among the instructions that are written. -/
theorem Sound.lt_size {compilation : Compilation} (sound : compilation.Sound) {opening : Nat}
    (waits : opening ∈ compilation.waiting) : opening < compilation.written.size := by
  obtain ⟨inside, -⟩ := Array.getElem?_eq_some_iff.mp (sound.placeholders opening waits)
  exact inside

/-- One instruction more changes nothing about those that wait. -/
theorem Sound.push {written : Array Instruction} {waiting : List Nat}
    (sound : Sound ⟨written, waiting⟩) (instruction : Instruction) :
    Sound ⟨written.push instruction, waiting⟩ where
  placeholders := by
    intro opening waits
    have inside := sound.lt_size waits
    rw [Array.getElem?_push_lt inside, ← Array.getElem?_eq_getElem inside]
    exact sound.placeholders opening waits
  descending := sound.descending

/-- An opening bracket is written for its own place, which is further on than
all others. -/
theorem Sound.open {written : Array Instruction} {waiting : List Nat}
    (sound : Sound ⟨written, waiting⟩) :
    Sound ⟨written.push (.loopBegin written.size), written.size :: waiting⟩ where
  placeholders := by
    intro opening waits
    rcases List.mem_cons.mp waits with rfl | waitsBefore
    · simp
    · exact (sound.push _).placeholders opening waitsBefore
  descending := List.pairwise_cons.mpr ⟨fun _ waits => sound.lt_size waits, sound.descending⟩

/-- Resolving the innermost bracket leaves the outer ones as they are. -/
theorem Sound.resolve {written : Array Instruction} {innermost : Nat} {outer : List Nat}
    (sound : Sound ⟨written, innermost :: outer⟩) (resolved : Instruction) :
    Sound ⟨written.setIfInBounds innermost resolved, outer⟩ where
  placeholders := by
    intro opening waits
    have further : opening < innermost := (List.pairwise_cons.mp sound.descending).1 _ waits
    have differs : innermost ≠ opening := by omega
    rw [Array.getElem?_setIfInBounds_ne differs]
    exact sound.placeholders opening (List.mem_cons_of_mem _ waits)
  descending := (List.pairwise_cons.mp sound.descending).2

/-- Taking in a character keeps a compilation sound. -/
theorem Sound.take {compilation : Compilation} (sound : compilation.Sound) (character : Char) :
    (compilation.take character).Sound := by
  obtain ⟨written, waiting⟩ := compilation
  cases means : Symbol.ofChar? character with
  | none => rwa [take_comment means]
  | some symbol =>
      obtain rfl := Symbol.ofChar?_eq_some_iff.mp means
      cases symbol with
      | command action =>
          rw [Symbol.toChar, take_command]
          exact sound.push _
      | bracket side =>
          cases side with
          | opening => exact sound.open
          | closing =>
              cases waiting with
              | nil => exact sound.push _
              | cons innermost outer => exact (sound.resolve _).push _

/-- At every moment of a compilation it is sound. -/
theorem Sound.foldl {compilation : Compilation} (sound : compilation.Sound)
    (code : List Char) : (code.foldl Compilation.take compilation).Sound := by
  induction code generalizing compilation with
  | nil => exact sound
  | cons character rest inductionHypothesis => exact inductionHypothesis (sound.take character)

/-- A character that is no bracket lets those wait that waited. -/
theorem waiting_take_other {character : Char} (notOpening : character ≠ '[')
    (notClosing : character ≠ ']') (compilation : Compilation) :
    (compilation.take character).waiting = compilation.waiting := by
  rcases Symbol.command_or_comment notOpening notClosing with ⟨action, rfl⟩ | meaningless
  · rw [take_command]
  · rw [take_comment meaningless]

/-- A scan that has as many open brackets as the compilation has waiting ones, and
that finds no fault, never meets a closing bracket for which nobody waits. -/
theorem exists_waiting {before behind : List Char} {compilation : Compilation}
    {position lastOpening : Nat}
    (accepted : findFault position compilation.waiting.length lastOpening
      (before ++ ']' :: behind) = none) :
    ∃ innermost outer, (before.foldl take compilation).waiting = innermost :: outer := by
  obtain ⟨written, waiting⟩ := compilation
  -- The depth of the scan stays the number of those that wait, whatever was written.
  induction before generalizing written waiting position lastOpening with
  | nil =>
      cases waiting with
      | nil => simp at accepted
      | cons innermost outer => exact ⟨innermost, outer, rfl⟩
  | cons character before inductionHypothesis =>
      rw [List.cons_append] at accepted
      cases read : Bracket.ofChar? character with
      | none =>
          obtain ⟨notOpening, notClosing⟩ := Bracket.ofChar?_eq_none_iff.mp read
          have same := waiting_take_other notOpening notClosing ⟨written, waiting⟩
          rw [findFault_other read, ← same] at accepted
          exact inductionHypothesis _ _ accepted
      | some side =>
          obtain rfl := Bracket.ofChar?_eq_some_iff.mp read
          cases side with
          | opening => exact inductionHypothesis _ (written.size :: waiting) accepted
          | closing =>
              cases waiting with
              | nil => simp [Bracket.toChar] at accepted
              | cons innermost outer => exact inductionHypothesis _ outer accepted

end Brainfuck.Compilation
