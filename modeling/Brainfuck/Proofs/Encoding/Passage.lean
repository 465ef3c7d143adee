import Brainfuck.Proofs.Encoding.Footprint

/-!
# The passage through an encoded text

A machine that is let into the code of a text with the code of some character in
its first cell comes out behind it with the text printed and the code of the last
character in that cell: `traverses_encodeFrom`, by induction on the text. What it
takes to go from one character to the next depends on their distance only.
-/

namespace Brainfuck.Encoding

variable {σ : Type} {room : Nat} {source : σ} {text printed : List Char}

/-- The steps of going a distance. -/
def travelSteps (distance : Nat) : Nat :=
  if distance < loopThreshold then distance
  else
    let root := nearestRoot distance
    root * root + 6 * root + 3 + ((distance - root * root) + (root * root - distance))

/-- The log of going a distance: a loop is left, if there is one. -/
def travelEvents (distance : Nat) : Nat -> List Event :=
  if distance < loopThreshold then silence
  else fun place => exitEvents (nearestRoot distance + 3) (place + (nearestRoot distance + 1))

/-- The steps of printing a text. -/
def textSteps : Nat -> List Char -> Nat
  | _, [] => 0
  | previous, character :: rest =>
      travelSteps (distance previous character.toNat) + 1 + textSteps character.toNat rest

/-- The log of printing a text. -/
def textEvents : Nat -> List Char -> Nat -> List Event
  | _, [], _ => []
  | previous, character :: rest, place =>
      travelEvents (distance previous character.toNat) place ++
        textEvents character.toNat rest
          (place + (Symbol.ofCode (characterCode previous character.toNat)).length)

/-- The parts of the code that goes a long distance. -/
theorem loopCode_eq (toward away : Command) (distance : Nat) :
    loopCode ⟨toward.toChar, away.toChar⟩ distance =
      ['>'] ++ List.replicate (nearestRoot distance) '+' ++
        (('[' :: (roundCode toward (nearestRoot distance) ++ [']'])) ++ (['<'] ++
          (List.replicate (distance - nearestRoot distance * nearestRoot distance) toward.toChar ++
            List.replicate (nearestRoot distance * nearestRoot distance - distance)
              away.toChar))) := by
  simp [loopCode, roundCode]

/-- The codes of characters are within the bounds. -/
theorem within_of_le {code : Nat} (inRange : code ≤ 0x10ffff) : Within code 0 := by
  constructor <;> omega

/-- The number of symbols that set up the second cell. -/
theorem length_ofCode_setUp (root : Nat) :
    (Symbol.ofCode (['>'] ++ List.replicate root '+')).length = root + 1 := by
  have move : Symbol.ofCode ['>'] = [.command .moveRight] := rfl
  have signs : Symbol.ofCode (List.replicate root '+') =
      List.replicate root (.command .increment) :=
    Symbol.ofCode_replicate .increment root
  rw [Symbol.ofCode_append, move, signs]
  simp

variable [Source σ]

/-- The second cell is set up to count. -/
theorem traverses_setUp {value : Int} {root : Nat} (start : Within value 0)
    (stop : Within value root) :
    Traverses (Footprint room text) (['>'] ++ List.replicate root '+')
      (stage room source printed value 0 0) (1 + root) silence
      (stage room source printed value root 1) :=
  .append_silent (traverses_moveRight start) (traverses_signs_second start stop)

/-- Behind the loop the first cell is corrected by what it lacks or has too much. -/
theorem traverses_correction {toward away : Command} {unit value next : Int} {lack excess : Nat}
    (there : Shifts toward unit) (back : Shifts away (-unit)) (start : Within value 0)
    (between : Within (value + unit * lack) 0) (stop : Within next 0)
    (corrected : next = value + unit * lack + -unit * excess) :
    Traverses (Footprint room text)
      (['<'] ++ (List.replicate lack toward.toChar ++ List.replicate excess away.toChar))
      (stage room source printed value 0 1) (1 + (lack + excess)) silence
      (stage room source printed next 0 0) := by
  refine .append_silent (traverses_moveLeft start) ?_
  refine .append_silent (traverses_signs_first there start between rfl) ?_
  exact traverses_signs_first back between stop corrected

/-- A long distance is gone by way of the point to which the loop leads. -/
theorem traverses_loopCode {toward away : Command} {unit : Int} {previous current distance : Nat}
    (there : Shifts toward unit) (back : Shifts away (-unit))
    (previousInRange : previous ≤ 0x10ffff) (currentInRange : current ≤ 0x10ffff)
    (long : loopThreshold ≤ distance) (moved : (current : Int) = previous + unit * distance) :
    Traverses (Footprint room text) (loopCode ⟨toward.toChar, away.toChar⟩ distance)
      (stage room source printed previous 0 0)
      (nearestRoot distance * nearestRoot distance + 6 * nearestRoot distance + 3 +
        ((distance - nearestRoot distance * nearestRoot distance) +
          (nearestRoot distance * nearestRoot distance - distance)))
      (fun place => exitEvents (nearestRoot distance + 3) (place + (nearestRoot distance + 1)))
      (stage room source printed current 0 0) := by
  have inRange : distance ≤ 0x10ffff := by
    cases there <;> omega
  have rootLe : nearestRoot distance ≤ 1056 := nearestRoot_le (Nat.le_trans inRange (by decide))
  have overshoot := square_lt_add_nearestRoot (Nat.lt_of_lt_of_le (by decide) long)
  have undershoot := le_square_add_nearestRoot distance
  rw [loopCode_eq]
  generalize nearestRoot distance = root at *
  have square : ((root * root : Nat) : Int) = root * root := Int.natCast_mul root root
  let turn : Int := previous + unit * (root * root)
  have counted : Within previous root := by
    constructor <;> omega
  have atTurn (counter : Int) (nonneg : 0 ≤ counter) (small : counter ≤ root) :
      Within turn counter := by
    cases there <;> constructor <;> omega
  have between : Within (turn + unit * (distance - root * root : Nat)) 0 := by
    cases there <;> constructor <;> omega
  have corrected : (current : Int) = turn + unit * (distance - root * root : Nat) +
      -unit * (root * root - distance : Nat) := by
    cases there <;> omega
  have entering := atTurn root (by omega) (by omega)
  have leaving := atTurn 0 (by omega) (by omega)
  refine Traverses.congr (Traverses.append (traverses_setUp (within_of_le previousInRange) counted)
    (Traverses.append (traverses_loop there counted entering rfl)
      (traverses_correction there back leaving between (within_of_le currentInRange) corrected)))
    ?_ ?_
  · rw [Nat.mul_add, Nat.mul_add]
    omega
  · intro place
    simp only [silence, List.nil_append, List.append_nil, length_ofCode_setUp]

/-- The way from one character to another. -/
theorem traverses_travelCode {previous current : Nat} (previousInRange : previous ≤ 0x10ffff)
    (currentInRange : current ≤ 0x10ffff) :
    Traverses (Footprint room text)
      (travelCode (Heading.between previous current) (distance previous current))
      (stage room source printed previous 0 0) (travelSteps (distance previous current))
      (travelEvents (distance previous current)) (stage room source printed current 0 0) := by
  obtain ⟨toward, away, unit, heading, there, back, moved⟩ :=
    Heading.between_shifts previous current
  rw [heading]
  unfold travelCode travelSteps travelEvents
  split
  · exact traverses_signs_first there (within_of_le previousInRange) (within_of_le currentInRange)
      moved
  · rename_i long
    exact traverses_loopCode there back previousInRange currentInRange (Nat.le_of_not_lt long) moved

/-- The next character of a text is gone to and printed. -/
theorem traverses_characterCode {previous : Nat} {character : Char}
    (previousInRange : previous ≤ 0x10ffff) (turn : text[printed.length]? = some character) :
    Traverses (Footprint room text) (characterCode previous character.toNat)
      (stage room source printed previous 0 0)
      (travelSteps (distance previous character.toNat) + 1)
      (travelEvents (distance previous character.toNat))
      (stage room source (printed ++ [character]) character.toNat 0 0) := by
  have inRange := toNat_le_last character
  refine Traverses.congr (Traverses.append (traverses_travelCode previousInRange inRange)
    (traverses_output (within_of_le inRange) turn)) rfl ?_
  intro place
  rw [silence, List.append_nil]

/-- A text is printed character by character behind what has been printed before. -/
theorem traverses_encodeFrom {previous : Nat} {rest : List Char}
    (previousInRange : previous ≤ 0x10ffff) (whole : text = printed ++ rest) :
    Traverses (Footprint room text) (encodeFrom previous rest)
      (stage room source printed previous 0 0) (textSteps previous rest)
      (textEvents previous rest)
      (stage room source text ((rest.map Char.toNat).getLastD previous : Nat) 0 0) := by
  induction rest generalizing previous printed with
  | nil =>
      obtain rfl : text = printed := by simpa using whole
      exact .nil
  | cons character rest inductionHypothesis =>
      have turn : text[printed.length]? = some character := by simp [whole]
      have inRange := toNat_le_last character
      have wholeAgain : text = printed ++ [character] ++ rest := by simpa using whole
      have onward := inductionHypothesis inRange wholeAgain
      rw [List.map_cons, List.getLastD_cons, encodeFrom_cons]
      exact Traverses.append (traverses_characterCode previousInRange turn) onward

/-- From a blank tape and an empty buffer on, a text is printed all alone. -/
theorem traverses_encode (room : Nat) (source : σ) (text : List Char) :
    Traverses (Footprint room text) (encode text)
      ⟨.blank (room + 2) (Nat.succ_pos (room + 1)), source, .empty⟩
      (textSteps 0 text) (textEvents 0 text)
      (stage room source text ((text.map Char.toNat).getLastD 0 : Nat) 0 0) := by
  rw [Tape.blank_eq_twoCells]
  exact traverses_encodeFrom (Nat.zero_le 0x10ffff) (List.nil_append text).symm

end Brainfuck.Encoding
