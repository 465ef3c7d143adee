import Brainfuck.Machine.State
import Brainfuck.Proofs.Encoding.Rounding

/-!
# The size of encoded texts

What is emitted for a character depends on its distance from the one before it:
`length_characterCode`. The size of a text's code is the sum over these distances. How a
size compares with that of a plain run of signs comes from the two bounds of the nearest
root, `distance_square_le`; the smallest distances, where a loop is still the longer way,
are the reason for the thresholds in `Emission`.
-/

namespace Brainfuck.Encoding

/-- How far the codes of the characters of a text are, each from the one before it and the
first from `previous`. -/
def distancesFrom (previous : Nat) (text : List Char) : List Nat :=
  let codes := text.map Char.toNat
  List.zipWith distance (previous :: codes) codes

/-- How far the codes of the characters of a text are, each from the one before it. -/
def distances (text : List Char) : List Nat :=
  distancesFrom 0 text

@[simp] theorem distancesFrom_nil (previous : Nat) : distancesFrom previous [] = [] := rfl

@[simp] theorem distancesFrom_cons (previous : Nat) (character : Char) (rest : List Char) :
    distancesFrom previous (character :: rest) =
      distance previous character.toNat :: distancesFrom character.toNat rest := rfl

@[simp] theorem length_distancesFrom (previous : Nat) (text : List Char) :
    (distancesFrom previous text).length = text.length := by
  simp [distancesFrom]

/-- Two codes of characters are no further apart than the first and the last one. -/
theorem distance_le {previous current : Nat} (previousInRange : previous ≤ 0x10ffff)
    (currentInRange : current ≤ 0x10ffff) : distance previous current ≤ 0x10ffff := by
  unfold distance
  omega

/-- All distances between characters are within the range of their codes. -/
theorem le_of_mem_distancesFrom {previous : Nat} {text : List Char}
    (previousInRange : previous ≤ 0x10ffff) :
    ∀ way ∈ distancesFrom previous text, way ≤ 0x10ffff := by
  induction text generalizing previous with
  | nil => simp
  | cons character rest inductionHypothesis =>
      have inRange := toNat_le_last character
      rw [distancesFrom_cons, List.forall_mem_cons]
      exact ⟨distance_le previousInRange inRange, inductionHypothesis inRange⟩

/-- Every square root of a distance that is correct to 43 binary places, as it is in double
precision, is rounded to its nearest root. -/
def RootIsRounded (way : Nat) : Prop :=
  ∀ approximation : ℝ, |approximation - √(way : ℝ)| ≤ 1 / 2 ^ 43 ->
    round approximation = nearestRoot way

/-- The number of characters that are emitted for one at this distance. -/
def characterSize (way : Nat) : Nat :=
  if way < 10 then way + 1
  else
    let root := nearestRoot way
    2 * root + 8 + distance (root * root) way

/-- The distance between two numbers is what the one lacks and what the other has too much. -/
theorem distance_eq_add (left right : Nat) :
    distance left right = (right - left) + (left - right) := by
  unfold distance
  omega

/-- A long distance is gone in so many characters. -/
theorem length_loopCode (heading : Heading) (way : Nat) :
    (loopCode heading way).length =
      2 * nearestRoot way + 7 + distance (nearestRoot way * nearestRoot way) way := by
  simp only [loopCode, List.length_cons, List.length_append, List.length_replicate,
    List.length_nil, distance_eq_add]
  omega

/-- What is emitted for a character is as long as its distance asks for. -/
@[simp] theorem length_characterCode (previous current : Nat) :
    (characterCode previous current).length = characterSize (distance previous current) := by
  unfold characterCode travelCode characterSize loopThreshold
  split
  · simp
  · rw [List.length_append, length_loopCode, List.length_singleton]
    dsimp only
    omega

/-- The code of a text is as long as the distances between its characters ask for. -/
theorem length_encodeFrom (previous : Nat) (text : List Char) :
    (encodeFrom previous text).length = ((distancesFrom previous text).map characterSize).sum := by
  induction text generalizing previous with
  | nil => rfl
  | cons character rest inductionHypothesis => simp [inductionHypothesis]

/-- The code of a text up to some character is followed by what is emitted for that one. -/
theorem exists_characterCode {previous : Nat} {text : List Char} {index way : Nat}
    (turn : (distancesFrom previous text)[index]? = some way) :
    ∃ before current, distance before current = way ∧
      encodeFrom previous (text.take (index + 1)) =
        encodeFrom previous (text.take index) ++ characterCode before current := by
  induction text generalizing previous index with
  | nil => simp at turn
  | cons character rest inductionHypothesis =>
      cases index with
      | zero =>
          obtain rfl : distance previous character.toNat = way := by simpa using turn
          exact ⟨previous, character.toNat, rfl, by simp⟩
      | succ index =>
          obtain ⟨before, current, apart, behind⟩ := inductionHypothesis (by simpa using turn)
          refine ⟨before, current, apart, ?_⟩
          rw [List.take_succ_cons, List.take_succ_cons, encodeFrom_cons, encodeFrom_cons, behind,
            List.append_assoc]

/-- The square of the nearest root is no further away than the root says. -/
theorem distance_square_le {way : Nat} (positive : 0 < way) :
    distance (nearestRoot way * nearestRoot way) way ≤ nearestRoot way := by
  have lacks := le_square_add_nearestRoot way
  have exceeds := square_lt_add_nearestRoot positive
  rw [distance_eq_add]
  omega

/-- The root of a larger distance than `root * (root + 1)` is larger than `root`. -/
theorem lt_nearestRoot {way root : Nat} (large : root * (root + 1) < way) :
    root < nearestRoot way := by
  have enough := (nearestRoot_bounds way).1
  by_contra atMost
  have less : nearestRoot way ≤ root := Nat.le_of_not_lt atMost
  have product := Nat.mul_le_mul less (Nat.add_le_add_right less 1)
  omega

/-- From 22 on, a distance asks for fewer characters than there are signs to go it. -/
theorem characterSize_lt {way : Nat} (far : 22 ≤ way) : characterSize way < way + 1 := by
  have long : ¬ way < 10 := Nat.not_lt.mpr (Nat.le_trans (by decide) far)
  have rootLarge : 4 < nearestRoot way := lt_nearestRoot (Nat.lt_of_lt_of_le (by decide) far)
  have lacks := le_square_add_nearestRoot way
  have exceeds := square_lt_add_nearestRoot (Nat.lt_of_lt_of_le (by decide) far)
  simp only [characterSize, long, if_false, distance_eq_add]
  generalize nearestRoot way = root at *
  -- The square grows past what the loop costs from 6 on; for 5 the distance itself decides.
  obtain rfl | more : root = 5 ∨ 6 ≤ root := by omega
  · omega
  · have square : 6 * root ≤ root * root := Nat.mul_le_mul_right root more
    omega

/-- A long distance asks for at most five characters more than there are signs to go it. -/
theorem characterSize_le_add {way : Nat} (far : 10 ≤ way) :
    characterSize way ≤ way + 1 + 5 := by
  have rootLarge : 2 < nearestRoot way := lt_nearestRoot (Nat.lt_of_lt_of_le (by decide) far)
  have lacks := le_square_add_nearestRoot way
  have exceeds := square_lt_add_nearestRoot (Nat.lt_of_lt_of_le (by decide) far)
  simp only [characterSize, Nat.not_lt.mpr far, if_false, distance_eq_add]
  generalize nearestRoot way = root at *
  obtain rfl | more : root = 3 ∨ 4 ≤ root := by omega
  · omega
  · have square : 4 * root ≤ root * root := Nat.mul_le_mul_right root more
    omega

/-- No distance between characters asks for more than 3175 characters. -/
theorem characterSize_le {way : Nat} (inRange : way ≤ 0x10ffff) : characterSize way ≤ 3175 := by
  have rootLe : nearestRoot way ≤ 1056 := nearestRoot_le (Nat.le_trans inRange (by decide))
  unfold characterSize
  split
  · rename_i short
    exact Nat.le_trans short (by decide)
  · rename_i far
    have positive : 0 < way := Nat.lt_of_lt_of_le (by decide) (Nat.le_of_not_lt far)
    have close := distance_square_le positive
    have exceeds := square_lt_add_nearestRoot positive
    -- Past the square of the largest root there is no distance any more.
    obtain largest | less : nearestRoot way = 1056 ∨ nearestRoot way ≤ 1055 := by omega
    · simp only [largest, distance_eq_add] at exceeds ⊢
      omega
    · dsimp only
      omega

/-- The code of a text has at most 3175 characters for each character of the text. -/
theorem length_encode_le (text : List Char) : (encode text).length ≤ 3175 * text.length := by
  have each : ∀ size ∈ (distances text).map characterSize, size ≤ 3175 := by
    rw [List.forall_mem_map]
    intro way member
    exact characterSize_le (le_of_mem_distancesFrom (Nat.zero_le 0x10ffff) way member)
  have total := List.sum_le_card_nsmul _ 3175 each
  rw [List.length_map, distances, length_distancesFrom, smul_eq_mul, Nat.mul_comm] at total
  rw [encode, length_encodeFrom]
  exact total

/-- So many characters that go back and forth between two, from `here` to `there` first. -/
def backAndForth (here there : Char) : Nat -> List Char
  | 0 => []
  | count + 1 => there :: backAndForth there here count

@[simp] theorem length_backAndForth (here there : Char) (count : Nat) :
    (backAndForth here there count).length = count := by
  induction count generalizing here there with
  | zero => rfl
  | succ count inductionHypothesis => simp [backAndForth, inductionHypothesis]

/-- Each of the characters that go back and forth asks for the same size. -/
theorem length_encodeFrom_backAndForth (here there : Char) (count : Nat) :
    (encodeFrom here.toNat (backAndForth here there count)).length =
      characterSize (distance here.toNat there.toNat) * count := by
  induction count generalizing here there with
  | zero => rfl
  | succ count inductionHypothesis =>
      have back : distance there.toNat here.toNat = distance here.toNat there.toNat := by
        unfold distance
        omega
      rw [backAndForth, encodeFrom_cons, List.length_append, length_characterCode,
        inductionHypothesis, back, Nat.mul_succ, Nat.add_comm]

/-- The distance that asks for the most characters: the nearest root is the largest one
and exceeds by as much as it can. -/
theorem characterSize_widest : characterSize 0x10ffe1 = 3175 := by
  have rootLe : nearestRoot 0x10ffe1 ≤ 1056 := nearestRoot_le (by decide)
  have rootGt : 1055 < nearestRoot 0x10ffe1 := lt_nearestRoot (by decide)
  obtain root : nearestRoot 0x10ffe1 = 1056 := by omega
  simp [characterSize, root, distance]

/-- What is emitted for a character at a long distance: so many characters, of which those
that correct the loop are no more than its root. They are fewer than a plain run of signs
would take from 22 on, and never more than five in excess of it. -/
structure Emission (way : Nat) (emitted : List Char) : Prop where
  root : RootIsRounded way
  size : emitted.length =
    2 * nearestRoot way + 8 + distance (nearestRoot way * nearestRoot way) way
  correction : distance (nearestRoot way * nearestRoot way) way ≤ nearestRoot way
  shorter : 22 ≤ way -> ∀ sign, emitted.length < (List.replicate way sign ++ ['.']).length
  longer : ∀ sign, emitted.length ≤ (List.replicate way sign ++ ['.']).length + 5

/-- What is emitted for a character at a long distance is an emission for it. -/
theorem emission_characterCode {previous current : Nat}
    (inRange : distance previous current ≤ 0x10ffff)
    (far : 10 ≤ distance previous current) :
    Emission (distance previous current) (characterCode previous current) where
  root _ close := round_eq_nearestRoot_of_le inRange close
  size := by
    rw [length_characterCode, characterSize, if_neg (Nat.not_lt.mpr far)]
  correction := distance_square_le (Nat.lt_of_lt_of_le (by decide) far)
  shorter farther sign := by
    simpa using characterSize_lt farther
  longer sign := by
    simpa using characterSize_le_add far

/-- For every text, what is emitted for a character at a long distance from the one before
it is an emission for that distance, and the whole code has at most 3175 characters for
each character. Of every length there is a text whose code has as many. -/
theorem encode_sized (text : List Char) :
    (∀ index way, (distances text)[index]? = some way -> 10 ≤ way ->
        ∃ emitted, encode (text.take (index + 1)) = encode (text.take index) ++ emitted ∧
          Emission way emitted) ∧
      (encode text).length ≤ 3175 * text.length ∧
      ∀ count, ∃ longest : List Char, longest.length = count ∧
        (encode longest).length = 3175 * count := by
  refine ⟨?_, length_encode_le text, ?_⟩
  · intro index way turn far
    have inRange : way ≤ 0x10ffff :=
      le_of_mem_distancesFrom (Nat.zero_le 0x10ffff) way (List.mem_of_getElem? turn)
    obtain ⟨before, current, rfl, behind⟩ := exists_characterCode turn
    exact ⟨characterCode before current, behind, emission_characterCode inRange far⟩
  · intro count
    refine ⟨backAndForth '\x00' (Char.ofNat 0x10ffe1) count, length_backAndForth _ _ _, ?_⟩
    have apart : distance '\x00'.toNat (Char.ofNat 0x10ffe1).toNat = 0x10ffe1 := by decide
    have total := length_encodeFrom_backAndForth '\x00' (Char.ofNat 0x10ffe1) count
    rwa [apart, characterSize_widest] at total

/-- The last of three characters is 22 away from the one before it. -/
theorem encode_sized_threshold :
    (distances ['é', 'W', 'A'])[2]? = some 22 ∧ 10 ≤ 22 ∧
      ∃ emitted,
        encode (List.take 3 ['é', 'W', 'A']) = encode (List.take 2 ['é', 'W', 'A']) ++ emitted ∧
        Emission 22 emitted :=
  ⟨by decide, by decide, (encode_sized ['é', 'W', 'A']).1 2 22 (by decide) (by decide)⟩

end Brainfuck.Encoding
