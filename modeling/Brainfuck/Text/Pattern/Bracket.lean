import Brainfuck.Text.Pattern.Escape
import Brainfuck.Text.Pattern.Nesting

/-!
# Bracketed classes

Sets of characters in brackets: single characters, ranges, named classes of ASCII
and classes within the class, all of it together or negated, and operations
between two such lists. The classes that are open are kept in a list, the
innermost first, so that a class is read in one pass over its characters.
-/

namespace Brainfuck.Text.Pattern.Bracket

/-- A class of ASCII characters by its name. -/
def namedSet? (name : List Char) : Option CharacterSet :=
  let digit := CharacterSet.between '0' '9'
  let upper := CharacterSet.between 'A' 'Z'
  let lower := CharacterSet.between 'a' 'z'
  let alphabetic := upper.union lower
  match String.ofList name with
  | "alnum" => some (digit.union alphabetic)
  | "alpha" => some alphabetic
  | "ascii" => some (.between '\x00' '\x7f')
  | "blank" => some (.ofList ['\t', ' '])
  | "cntrl" => some ((CharacterSet.between '\x00' '\x1f').union (.single '\x7f'))
  | "digit" => some digit
  | "graph" => some (.between '!' '~')
  | "lower" => some lower
  | "print" => some (.between ' ' '~')
  | "punct" =>
      some ((CharacterSet.between '!' '~').difference (digit.union alphabetic))
  | "space" => some Shorthand.space.set
  | "upper" => some upper
  | "word" => some Shorthand.word.set
  | "xdigit" => some (digit.union ((CharacterSet.between 'A' 'F').union (.between 'a' 'f')))
  | _ => none

/-- A part of a class that stands for a set. -/
structure Part where
  set : CharacterSet
  span : Span
  nesting : Nesting

/-- What has been read of a list of parts. -/
structure Members where
  set : CharacterSet
  count : Nat
  span : Span
  nesting : Nesting

namespace Members

/-- No parts, at a place. -/
def none (place : Place) : Members where
  set := .empty
  count := 0
  span := .empty place
  nesting := .flat

/-- The list with one more part. -/
def add (members : Members) (part : Part) : Members where
  set := members.set.union part.set
  count := members.count + 1
  span := ⟨if members.count = 0 then part.span.start else members.span.start, part.span.stop⟩
  nesting := members.nesting.beside part.nesting

/-- The list as a part of its own; only several parts are nested in it. -/
def whole (members : Members) : Part where
  set := members.set
  span := members.span
  nesting :=
    if 2 ≤ members.count then .around members.span members.nesting else members.nesting

end Members

/-- The operations between two lists. -/
inductive Operation where
  | intersection
  | difference
  | symmetricDifference
  deriving DecidableEq, Repr

/-- The set that an operation makes of two. -/
def Operation.apply (left right : CharacterSet) : Operation -> CharacterSet
  | .intersection => left.intersection right
  | .difference => left.difference right
  | .symmetricDifference => left.symmetricDifference right

/-- A class whose end has not been read. -/
structure Opened where
  /-- From the bracket to the first part that is not special. -/
  span : Span
  negated : Bool
  /-- What the class around this one had when this one was opened. -/
  around : Members
  /-- What stands to the left of an operation whose right side is being read. -/
  left? : Option (Operation × Part)

/-- The set of a whole class. Cases are folded first, and then it is negated. -/
def finished (modes : Modes) (negated : Bool) (set : CharacterSet) :
    Except Mistake CharacterSet :=
  if modes.unicode then
    if modes.foldedCase ∧ ¬ set.isEmpty then .error .foldingUnavailable
    else .ok (if negated then set.complement else set)
  else if negated then .error .characterSplit
  else .ok (if modes.foldedCase then set.withBothCases else set)

/-- The set of one side of an operation, with cases folded. -/
def side (modes : Modes) (set : CharacterSet) : Except Mistake CharacterSet :=
  finished modes false set

/-- The members read last, joined with what stands to the left of them. -/
def operate (opened : Opened) (right : Part) (reader : Reader) : Part × Reader :=
  match opened.left? with
  | none => (right, reader)
  | some (operation, left) =>
      let span : Span := ⟨left.span.start, right.span.stop⟩
      let (second, reader) := reader.settle right.span .empty (side reader.modes right.set)
      let (first, reader) := reader.settle left.span .empty (side reader.modes left.set)
      (⟨operation.apply first second, span, .around span (left.nesting.beside right.nesting)⟩,
        reader)

/-- Reads the hyphens that a class may begin with, if there are no more than so
many characters. -/
def readHyphens (start : Place) : Nat -> Members -> Reader -> Except Flaw (Members × Reader)
  | 0, members, reader => .ok (members, reader)
  | count + 1, members, reader =>
      if reader.head? = some '-' then
        let extended := members.add ⟨.single '-', reader.headSpan, .flat⟩
        let next := reader.proceed
        if next.atEnd then .error (.alone .classUnclosed (.empty start))
        else readHyphens start count extended next
      else .ok (members, reader)

/-- Reads a closing bracket that a class begins with, which stands for itself. -/
def readClosing (start : Place) (members : Members) (reader : Reader) :
    Except Flaw (Members × Reader) :=
  if members.count = 0 ∧ reader.head? = some ']' then
    let next := reader.proceed
    if next.atEnd then .error (.alone .classUnclosed (next.since start))
    else .ok (members.add ⟨.single ']', reader.headSpan, .flat⟩, next)
  else .ok (members, reader)

/-- Reads the beginning of a class: its bracket, the sign that negates it, and
characters that are not special there. -/
def begin (around : Members) (reader : Reader) :
    Except Flaw (Opened × Members × Reader) :=
  let start := reader.place
  let inner := reader.proceed
  let negated := inner.head? == some '^'
  let inside := if negated then inner.proceed else inner
  if inner.atEnd then .error (.alone .classUnclosed (inner.since start))
  else if inside.atEnd then .error (.alone .classUnclosed (inside.since start))
  else
    match readHyphens start inside.rest.length (.none inside.place) inside with
    | .error flaw => .error flaw
    | .ok (hyphens, afterHyphens) =>
        match readClosing start hyphens afterHyphens with
        | .error flaw => .error flaw
        | .ok (members, final) =>
            .ok (⟨final.since start, negated, around, none⟩, members, final)

/-- Reads a named class, if there is one. -/
def named? (reader : Reader) : Option (Part × Reader) :=
  match reader.after? "[:" with
  | none => none
  | some opened =>
      let negated := opened.head? == some '^'
      let (name, final) := (if negated then opened.advance else opened).span (· != ':')
      match final.after? ":]", namedSet? name with
      | some closed, some set =>
          let span := closed.since reader.place
          let (meant, settled) := closed.settle span .empty (finished reader.modes negated set)
          some (⟨meant, span, .flat⟩, settled)
      | _, _ => none

/-- Reads one character or escape in a class. -/
def readAtom (reader : Reader) : Except Flaw (Atom × Reader) :=
  match reader.head? with
  | some '\\' => Escape.read reader
  | some character => .ok (.literal character false, reader.advance)
  | none => .error (.alone .classUnclosed reader.here)

/-- What comes behind the next character; blanks are skipped where they mean
nothing, and so is the sign that begins a comment. -/
def peek? (reader : Reader) : Option Char :=
  match reader.rest with
  | [] => none
  | _ :: rest =>
      if reader.modes.spaced then
        match rest.dropWhile isBlank with
        | '#' :: comment => (comment.dropWhile isBlank).head?
        | other => other.head?
      else rest.head?

/-- A single atom as a part of a class. -/
def singlePart (span : Span) (atom : Atom) (reader : Reader) : Except Flaw (Part × Reader) :=
  match atom.membership? reader.modes with
  | none => .error (.alone .classMemberInvalid span)
  | some meaning =>
      let (set, settled) := reader.settle span .empty meaning
      .ok (⟨set, span, .flat⟩, settled)

/-- Two atoms as the bounds of a range. -/
def rangePart (lowSpan highSpan : Span) (low high : Atom) (reader : Reader) :
    Except Flaw (Part × Reader) :=
  match low, high with
  | .literal first firstByte, .literal last lastByte =>
      let span : Span := ⟨lowSpan.start, highSpan.stop⟩
      if last < first then .error (.alone .classRangeReversed span)
      else
        let (_, reader) :=
          reader.settle lowSpan .empty (Atom.literalMember reader.modes first firstByte)
        let (_, reader) :=
          reader.settle highSpan .empty (Atom.literalMember reader.modes last lastByte)
        .ok (⟨.between first last, span, .flat⟩, reader)
  | .literal _ _, _ => .error (.alone .classRangeUnbounded highSpan)
  | _, _ => .error (.alone .classRangeUnbounded lowSpan)

/-- Reads a single atom or a range. A hyphen that closes a class or belongs to an
operation makes no range. -/
def readRange (opened : Opened) (reader : Reader) : Except Flaw (Part × Reader) :=
  match readAtom reader with
  | .error flaw => .error flaw
  | .ok (low, afterLow) =>
      let lowSpan := afterLow.since reader.place
      let middle := afterLow.skip
      if middle.atEnd then .error (.alone .classUnclosed opened.span)
      else if middle.head? ≠ some '-' ∨ peek? middle = some ']' ∨ peek? middle = some '-' then
        singlePart lowSpan low middle
      else
        let upper := middle.proceed
        if upper.atEnd then .error (.alone .classUnclosed opened.span)
        else
          match readAtom upper with
          | .error flaw => .error flaw
          | .ok (high, final) => rangePart lowSpan (final.since upper.place) low high final

/-- The sign of an operation, which is doubled. -/
def operation? (reader : Reader) : Option Operation :=
  match reader.rest with
  | '&' :: '&' :: _ => some .intersection
  | '-' :: '-' :: _ => some .difference
  | '~' :: '~' :: _ => some .symmetricDifference
  | _ => none

/-- The class that ends with the next character. -/
def close (opened : Opened) (members : Members) (reader : Reader) : Part × Reader :=
  let (content, reader) := operate opened members.whole reader
  let closed := reader.advance
  let span := closed.since opened.span.start
  let (set, settled) :=
    closed.settle span .empty (finished reader.modes opened.negated content.set)
  (⟨set, span, .around span content.nesting⟩, settled)

/-- Reads the rest of a class, given the class that is open and the ones around it,
if there are no more than so many characters. -/
def readMembers (opened : Opened) (outer : List Opened) (members : Members) :
    Nat -> Reader -> Except Flaw (Part × Reader)
  | 0, _ => .error (.alone .classUnclosed opened.span)
  | count + 1, reader =>
      let reader := reader.skip
      match operation? reader, reader.head? with
      | _, none => .error (.alone .classUnclosed opened.span)
      | some operation, some _ =>
          let (left, reader) := operate opened members.whole reader
          let next := reader.advanceBy 2
          readMembers { opened with left? := some (operation, left) } outer (.none next.place)
            count next
      | none, some '[' =>
          match named? reader with
          | some (part, next) => readMembers opened outer (members.add part) count next
          | none =>
              match begin members reader with
              | .error flaw => .error flaw
              | .ok (inner, begun, next) =>
                  readMembers inner (opened :: outer) begun count next
      | none, some ']' =>
          let (part, next) := close opened members reader
          match outer with
          | [] => .ok (part, next)
          | enclosing :: others =>
              readMembers enclosing others (opened.around.add part) count next
      | none, some _ =>
          match readRange opened reader with
          | .error flaw => .error flaw
          | .ok (part, next) => readMembers opened outer (members.add part) count next

/-- Reads a class, from its bracket on. -/
def read (reader : Reader) : Except Flaw (Part × Reader) :=
  match begin (.none reader.place) reader with
  | .error flaw => .error flaw
  | .ok (opened, members, next) => readMembers opened [] members (reader.rest.length + 1) next

end Brainfuck.Text.Pattern.Bracket
