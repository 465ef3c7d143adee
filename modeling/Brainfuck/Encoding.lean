import Brainfuck.Code.Symbol

/-!
# Encoding

From a text to a code that prints it. Cell 0 goes from the code of one character
to the code of the next. A short way is written as a run of signs; a longer way
is covered by a loop that adds `root` to cell 0 `root` times, and a run of signs
for what is left, where `root` is the whole number nearest to the square root.
-/

namespace Brainfuck.Encoding

/-- The first number from `candidate` on, in so many tries, whose product with
its successor is at least `distance`. -/
def nearestRootFrom (distance : Nat) : Nat -> Nat -> Nat
  | 0, candidate => candidate
  | tries + 1, candidate =>
      if distance ≤ candidate * (candidate + 1) then candidate
      else nearestRootFrom distance tries (candidate + 1)

/-- The whole number nearest to the square root of `distance`. It is the least
`root` with `distance ≤ root * (root + 1)`, since the midpoint of `root` and
`root + 1` has the square `root * (root + 1) + 1/4`. -/
def nearestRoot (distance : Nat) : Nat :=
  nearestRootFrom distance distance 0

/-- Ways shorter than this are written as a run of signs. -/
def loopThreshold : Nat := 10

/-- The signs that go from one number to another. -/
structure Heading where
  toward : Char
  away : Char
  deriving DecidableEq, Repr

/-- Up for a larger number, down for any other. -/
def Heading.between (previous current : Nat) : Heading :=
  if previous < current then ⟨'+', '-'⟩ else ⟨'-', '+'⟩

/-- How far apart two numbers are. -/
def distance (previous current : Nat) : Nat :=
  ((current : Int) - previous).natAbs

/-- The code that goes a distance by a loop over cell 1. -/
def loopCode (heading : Heading) (distance : Nat) : List Char :=
  let root := nearestRoot distance
  '>' :: (List.replicate root '+' ++ ['[', '<'] ++ List.replicate root heading.toward ++
    ['>', '-', ']', '<'] ++ List.replicate (distance - root * root) heading.toward ++
    List.replicate (root * root - distance) heading.away)

/-- The code that goes a distance. -/
def travelCode (heading : Heading) (distance : Nat) : List Char :=
  if distance < loopThreshold then List.replicate distance heading.toward
  else loopCode heading distance

/-- The code that prints one character when cell 0 holds `previous`. -/
def characterCode (previous current : Nat) : List Char :=
  travelCode (Heading.between previous current) (distance previous current) ++ ['.']

/-- The code that prints a text when cell 0 holds `previous`. -/
def encodeFrom (previous : Nat) (text : List Char) : List Char :=
  let codes := text.map Char.toNat
  (List.zipWith characterCode (previous :: codes) codes).flatten

/-- The code that prints a text. -/
def encode (text : List Char) : List Char :=
  encodeFrom 0 text

@[simp] theorem encodeFrom_nil (previous : Nat) : encodeFrom previous [] = [] := rfl

/-- The code of each character starts from the character before it. -/
@[simp] theorem encodeFrom_cons (previous : Nat) (character : Char) (rest : List Char) :
    encodeFrom previous (character :: rest) =
      characterCode previous character.toNat ++ encodeFrom character.toNat rest := rfl

/-- The search finds a number that is large enough and no larger than needed. -/
theorem nearestRootFrom_bounds (distance tries candidate : Nat)
    (enough : distance ≤ (candidate + tries) * (candidate + tries + 1))
    (needed : candidate = 0 ∨ (candidate - 1) * candidate < distance) :
    distance ≤ nearestRootFrom distance tries candidate *
        (nearestRootFrom distance tries candidate + 1) ∧
      (nearestRootFrom distance tries candidate = 0 ∨
        (nearestRootFrom distance tries candidate - 1) *
          nearestRootFrom distance tries candidate < distance) := by
  induction tries generalizing candidate with
  | zero => exact ⟨enough, needed⟩
  | succ tries inductionHypothesis =>
      unfold nearestRootFrom
      split
      · rename_i large
        exact ⟨large, needed⟩
      · rename_i small
        refine inductionHypothesis (candidate + 1) ?_ (.inr ?_)
        · simpa [Nat.add_right_comm, Nat.add_assoc, Nat.add_comm 1 tries] using enough
        · simpa using Nat.lt_of_not_le small

/-- The nearest root is large enough and no larger than needed. -/
theorem nearestRoot_bounds (distance : Nat) :
    distance ≤ nearestRoot distance * (nearestRoot distance + 1) ∧
      (nearestRoot distance = 0 ∨
        (nearestRoot distance - 1) * nearestRoot distance < distance) :=
  nearestRootFrom_bounds distance distance 0
    (by simpa using Nat.le_mul_of_pos_right distance (Nat.succ_pos distance)) (.inl rfl)

/-- The square of the nearest root falls short by no more than the root. -/
theorem le_square_add_nearestRoot (distance : Nat) :
    distance ≤ nearestRoot distance * nearestRoot distance + nearestRoot distance := by
  have enough := (nearestRoot_bounds distance).1
  rwa [Nat.mul_succ] at enough

/-- The square of the nearest root goes too far by less than the root. -/
theorem square_lt_add_nearestRoot {distance : Nat} (positive : 0 < distance) :
    nearestRoot distance * nearestRoot distance < distance + nearestRoot distance := by
  rcases (nearestRoot_bounds distance).2 with zero | needed
  · simpa [zero] using positive
  · rw [Nat.sub_mul, Nat.one_mul] at needed
    omega

/-- The root of a smaller distance than `root * (root + 1)` is no larger than `root`. -/
theorem nearestRoot_le {distance root : Nat} (small : distance ≤ root * (root + 1)) :
    nearestRoot distance ≤ root := by
  rcases (nearestRoot_bounds distance).2 with zero | needed
  · omega
  · by_cases atMost : nearestRoot distance ≤ root
    · exact atMost
    · have less : root + 1 ≤ nearestRoot distance := Nat.lt_of_not_le atMost
      have previous : root ≤ nearestRoot distance - 1 := Nat.le_sub_one_of_lt less
      have product := Nat.mul_le_mul previous less
      exact absurd (Nat.lt_of_le_of_lt (Nat.le_trans small product) needed)
        (Nat.lt_irrefl distance)

end Brainfuck.Encoding
