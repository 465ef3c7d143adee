import Brainfuck.Text.Pattern.Reader

/-!
# Counts of repetitions

How often what stands in front of a repetition sign is repeated: the three signs
for the common cases, and counts in braces. A question mark behind it makes the
repetition lazy, which changes nothing about whether a text matches.
-/

namespace Brainfuck.Text.Pattern

/-- How often something is repeated: at least so often, and perhaps at most. -/
structure Count where
  least : Nat
  most? : Option Nat
  deriving DecidableEq, Repr

namespace Count

/-- The count of a repetition sign. -/
def ofSign? : Char -> Option Count
  | '?' => some ⟨0, some 1⟩
  | '*' => some ⟨0, none⟩
  | '+' => some ⟨1, none⟩
  | _ => none

/-- The reader behind a question mark, if there is one. -/
def afterLazy (reader : Reader) : Reader :=
  if reader.head? = some '?' then reader.advance else reader

/-- Reads the greatest count behind a comma. There need not be one; but if there is,
there has to be a least count before it. -/
def readMost (start : Place) (least : Except Flaw Nat) (reader : Reader) :
    Except Flaw (Count × Reader) :=
  match reader.head?, least with
  | none, _ => .error (.alone .countUnclosed (reader.since start))
  | some _, .error flaw => .error flaw
  | some '}', .ok count => .ok (⟨count, none⟩, reader)
  | some _, .ok count =>
      match reader.number with
      | (.error flaw, _) => .error flaw
      | (.ok most, final) => .ok (⟨count, some most⟩, final)

/-- Reads what stands in braces, behind the first of them, which stands at `start`. -/
def readBounds (start : Place) (reader : Reader) : Except Flaw (Count × Reader) :=
  if reader.atEnd then .error (.alone .countUnclosed (reader.since start))
  else
    let (least, final) := reader.number
    match final.head?, least with
    | none, _ => .error (.alone .countUnclosed (final.since start))
    | some ',', _ => readMost start least final.proceed
    | some _, .error flaw => .error flaw
    | some _, .ok count => .ok (⟨count, some count⟩, final)

/-- Reads a count in braces, from the first of them on. -/
def readBraced (reader : Reader) : Except Flaw (Count × Reader) :=
  match readBounds reader.place reader.proceed with
  | .error flaw => .error flaw
  | .ok (count, ended) =>
      if ended.head? = some '}' then
        let final := afterLazy ended.proceed
        if count.most?.any (· < count.least) then
          .error (.alone .countReversed (final.since reader.place))
        else .ok (count, final)
      else .error (.alone .countUnclosed (ended.since reader.place))

end Count

end Brainfuck.Text.Pattern
