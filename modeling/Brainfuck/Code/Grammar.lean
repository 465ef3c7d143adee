/-!
# The balanced language

The grammar of well-formed codes: nothing, a character that is no bracket in
front of a balanced code, or a bracketed balanced code in front of a balanced
code.
-/

namespace Brainfuck

/-- A code that the grammar `S -> empty | x S | [ S ] S` derives. -/
inductive Balanced : List Char -> Prop where
  | empty : Balanced []
  | other {character : Char} {rest : List Char} (notOpening : character ≠ '[')
      (notClosing : character ≠ ']') (balancedRest : Balanced rest) :
      Balanced (character :: rest)
  | loop {body rest : List Char} (balancedBody : Balanced body)
      (balancedRest : Balanced rest) :
      Balanced ('[' :: (body ++ ']' :: rest))

/-- Balanced codes are closed under concatenation. -/
theorem Balanced.append {left right : List Char} (balancedLeft : Balanced left)
    (balancedRight : Balanced right) : Balanced (left ++ right) := by
  induction balancedLeft with
  | empty => exact balancedRight
  | other notOpening notClosing _ inductionHypothesis =>
      exact .other notOpening notClosing inductionHypothesis
  | loop balancedBody _ _ inductionHypothesis =>
      simpa [List.append_assoc] using Balanced.loop balancedBody inductionHypothesis

end Brainfuck
