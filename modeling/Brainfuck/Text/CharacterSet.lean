/-!
# Sets of characters

Sets of characters as lists of intervals of codes. The intervals of a list may
overlap and come in any order; none of them is empty, so that the empty set has
one form only.
-/

namespace Brainfuck.Text

/-- The codes between two bounds, both included. -/
structure Interval where
  low : Nat
  high : Nat
  bounded : low ≤ high := by decide
  deriving DecidableEq, Repr

namespace Interval

/-- Whether a code lies between the bounds. -/
def contains (interval : Interval) (code : Nat) : Bool :=
  interval.low ≤ code && code ≤ interval.high

/-- The interval between two bounds, if there is one. -/
def between? (low high : Nat) : Option Interval :=
  if bounded : low ≤ high then some ⟨low, high, bounded⟩ else none

/-- What two intervals have in common. -/
def meet? (left right : Interval) : Option Interval :=
  between? (max left.low right.low) (min left.high right.high)

end Interval

/-- A set of characters, by the intervals that make it up. -/
structure CharacterSet where
  intervals : List Interval
  deriving DecidableEq, Repr

namespace CharacterSet

/-- The largest code of a character. -/
def largestCode : Nat := 0x10ffff

/-- The set without characters. -/
def empty : CharacterSet := ⟨[]⟩

/-- The set of all characters. -/
def full : CharacterSet := ⟨[⟨0, largestCode, by decide⟩]⟩

/-- The set of one character. -/
def single (character : Char) : CharacterSet :=
  ⟨[⟨character.toNat, character.toNat, Nat.le_refl _⟩]⟩

/-- The set of the characters between two. -/
def between (low high : Char) : CharacterSet :=
  ⟨(Interval.between? low.toNat high.toNat).toList⟩

/-- The set of some characters. -/
def ofList (characters : List Char) : CharacterSet :=
  ⟨characters.flatMap fun character => (single character).intervals⟩

/-- Whether a code belongs to a set. -/
def containsCode (set : CharacterSet) (code : Nat) : Bool :=
  set.intervals.any (·.contains code)

/-- Whether a character belongs to a set. -/
def contains (set : CharacterSet) (character : Char) : Bool :=
  set.containsCode character.toNat

/-- Whether a set has no characters. -/
def isEmpty (set : CharacterSet) : Bool :=
  set.intervals.isEmpty

/-- The characters of either set. -/
def union (left right : CharacterSet) : CharacterSet :=
  ⟨left.intervals ++ right.intervals⟩

/-- The characters of both sets. -/
def intersection (left right : CharacterSet) : CharacterSet :=
  ⟨left.intervals.flatMap fun first =>
    right.intervals.filterMap fun second => first.meet? second⟩

/-- The characters outside of an interval. -/
def outside (interval : Interval) : CharacterSet :=
  let below := if interval.low = 0 then none else Interval.between? 0 (interval.low - 1)
  let above := Interval.between? (interval.high + 1) largestCode
  ⟨below.toList ++ above.toList⟩

/-- The characters that are not in a set. -/
def complement (set : CharacterSet) : CharacterSet :=
  set.intervals.foldr (fun interval rest => (outside interval).intersection rest) full

/-- The characters of the first set that are not in the second. -/
def difference (left right : CharacterSet) : CharacterSet :=
  left.intersection right.complement

/-- The characters of exactly one of two sets. -/
def symmetricDifference (left right : CharacterSet) : CharacterSet :=
  (left.difference right).union (right.difference left)

/-- The interval of small letters for one of capital letters. -/
def lowered (interval : Interval) : Interval :=
  ⟨interval.low + 32, interval.high + 32, by have := interval.bounded; omega⟩

/-- The interval of capital letters for one of small letters. -/
def raised (interval : Interval) : Interval :=
  ⟨interval.low - 32, interval.high - 32, by have := interval.bounded; omega⟩

/-- A set with both cases of each ASCII letter in it. -/
def withBothCases (set : CharacterSet) : CharacterSet :=
  let capitals := set.intersection (between 'A' 'Z')
  let small := set.intersection (between 'a' 'z')
  ⟨set.intervals ++ capitals.intervals.map lowered ++ small.intervals.map raised⟩

end CharacterSet

end Brainfuck.Text
