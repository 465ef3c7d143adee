import Brainfuck.Text.Pattern.Bracket
import Brainfuck.Text.Pattern.Count
import Brainfuck.Text.Pattern.Group

/-!
# Patterns from texts

Reads a whole pattern. The groups that are open are kept in a list, the innermost
first, each with the alternatives it has and the parts of the one being read. A
text is refused for its first flaw of form, then for parts nested too deeply, then
for its first part without a meaning, and last for what cannot be compiled.
-/

namespace Brainfuck.Text.Pattern

/-- A part of a pattern that has been read. -/
structure Piece where
  expression : Expression
  span : Span
  nesting : Nesting
  /-- Whether it is anything to be repeated. -/
  repeatable : Bool

namespace Piece

/-- The sequence or choice of several pieces is nested around them, and a single
piece is itself. -/
def joined (join : Expression -> Expression -> Expression) (span : Span) : List Piece -> Piece
  | [] => ⟨.empty, span, .flat, true⟩
  | [piece] => piece
  | first :: second :: others =>
      let pieces := second :: others
      let expression :=
        match (pieces.reverse.map (·.expression)) with
        | [] => first.expression
        | last :: before => join first.expression (before.foldl (fun rest part => join part rest) last)
      let nesting := pieces.foldl (fun nesting piece => nesting.beside piece.nesting) first.nesting
      ⟨expression, span, .around span nesting, true⟩

/-- A piece repeated, up to a place. -/
def repeated (count : Count) (stop : Place) (piece : Piece) : Piece :=
  let span : Span := ⟨piece.span.start, stop⟩
  ⟨.repetition piece.expression count.least count.most?, span, .around span piece.nesting, true⟩

end Piece

/-- A group whose end has not been read, or the pattern itself. -/
structure OpenGroup where
  /-- Its parenthesis; the pattern itself has none. -/
  parenthesis? : Option Span
  /-- The modes to go back to at its end. -/
  modes : Modes
  /-- The place of the first alternative. -/
  start : Place
  /-- The alternatives before this one, the latest first. -/
  alternatives : List Piece
  /-- The place of this alternative. -/
  alternative : Place
  /-- The parts of this alternative, the latest first. -/
  pieces : List Piece

namespace OpenGroup

/-- A group without content, before its first character. -/
def fresh (parenthesis? : Option Span) (modes : Modes) (place : Place) : OpenGroup where
  parenthesis? := parenthesis?
  modes := modes
  start := place
  alternatives := []
  alternative := place
  pieces := []

/-- The group with one more part. -/
def push (group : OpenGroup) (piece : Piece) : OpenGroup :=
  { group with pieces := piece :: group.pieces }

/-- This alternative, up to a place. -/
def sequence (group : OpenGroup) (stop : Place) : Piece :=
  .joined .sequence ⟨group.alternative, stop⟩ group.pieces.reverse

/-- The group after the sign at a place that ends this alternative. -/
def turn (group : OpenGroup) (stop after : Place) : OpenGroup :=
  { group with
    alternatives := group.sequence stop :: group.alternatives
    alternative := after
    pieces := [] }

/-- All alternatives, up to a place. -/
def content (group : OpenGroup) (stop : Place) : Piece :=
  .joined .choice ⟨group.start, stop⟩ (group.sequence stop :: group.alternatives).reverse

/-- The group with its latest part repeated. -/
def repeatLast (group : OpenGroup) (sign : Reader) (read : Except Flaw (Count × Reader)) :
    Except Flaw (OpenGroup × Reader) :=
  match group.pieces with
  | [] => .error (.alone .operandMissing sign.here)
  | piece :: before =>
      if piece.repeatable then
        read.map fun (count, next) =>
          ({ group with pieces := piece.repeated count next.place :: before }, next)
      else .error (.alone .operandMissing sign.here)

end OpenGroup

namespace Reading

/-- Reads an atom that stands on its own. -/
def readAtom (reader : Reader) : Except Flaw (Atom × Reader) :=
  match reader.head? with
  | some '\\' => Escape.read reader
  | some '.' => .ok (.anyCharacter, reader.advance)
  | some '^' => .ok (.lineStart, reader.advance)
  | some '$' => .ok (.lineStop, reader.advance)
  | some character => .ok (.literal character false, reader.advance)
  | none => .error (.alone .escapeIncomplete reader.here)

/-- Reads one part that is neither a group nor a repetition. -/
def readPiece (reader : Reader) : Except Flaw (Piece × Reader) :=
  if reader.head? = some '[' then
    (Bracket.read reader).map fun (part, next) =>
      (⟨.member part.set, part.span, part.nesting, true⟩, next)
  else
    (readAtom reader).map fun (atom, next) =>
      let span := next.since reader.place
      let (expression, settled) := next.settle span .empty (atom.meaning next.modes)
      (⟨expression, span, .flat, true⟩, settled)

/-- Where the reading of a pattern stands. -/
structure Progress where
  group : OpenGroup
  /-- The groups around this one, the innermost first. -/
  outer : List OpenGroup
  reader : Reader

/-- Goes on after the parenthesis that opens a group, or after a switch of modes. -/
def openGroup (progress : Progress) : Except Flaw Progress :=
  let reader := progress.reader
  match Group.read reader with
  | .error flaw => .error flaw
  | .ok (.opened, next) =>
      .ok ⟨.fresh (some reader.headSpan) reader.modes next.place,
        progress.group :: progress.outer, next⟩
  | .ok (.switched, next) =>
      .ok ⟨progress.group.push ⟨.empty, next.since reader.place, .flat, false⟩, progress.outer,
        next⟩

/-- Goes on after the parenthesis that closes a group. -/
def closeGroup (progress : Progress) : Except Flaw Progress :=
  let reader := progress.reader
  match progress.group.parenthesis?, progress.outer with
  | some parenthesis, enclosing :: others =>
      let content := progress.group.content reader.place
      let closed := reader.advance
      let span := closed.since parenthesis.start
      let piece : Piece := ⟨content.expression, span, .around span content.nesting, true⟩
      .ok ⟨enclosing.push piece, others, { closed with modes := progress.group.modes }⟩
  | _, _ => .error (.alone .groupUnopened reader.headSpan)

/-- Goes on after a repetition sign. -/
def repeatPiece (progress : Progress) (read : Except Flaw (Count × Reader)) :
    Except Flaw Progress :=
  (progress.group.repeatLast progress.reader read).map fun (group, next) =>
    ⟨group, progress.outer, next⟩

/-- Goes on after the part that begins with a character. -/
def step (progress : Progress) (character : Char) : Except Flaw Progress :=
  let reader := progress.reader
  match character with
  | '(' => openGroup progress
  | ')' => closeGroup progress
  | '|' =>
      let next := reader.advance
      .ok ⟨progress.group.turn reader.place next.place, progress.outer, next⟩
  | '{' => repeatPiece progress (Count.readBraced reader)
  | other =>
      match Count.ofSign? other with
      | some count => repeatPiece progress (.ok (count, Count.afterLazy reader.advance))
      | none =>
          (readPiece reader).map fun (piece, next) =>
            ⟨progress.group.push piece, progress.outer, next⟩

/-- Reads up to the end of the text, if there are no more than so many characters. -/
def steps : Nat -> Progress -> Except Flaw Progress
  | 0, progress => .ok progress
  | count + 1, progress =>
      let progress := { progress with reader := progress.reader.skip }
      match progress.reader.head? with
      | none => .ok progress
      | some character =>
          match step progress character with
          | .error flaw => .error flaw
          | .ok next => steps count next

/-- Reads a whole text: the piece it is, and the objection to it. -/
def read (text : List Char) : Except Flaw (Piece × Option Flaw) :=
  let reader := Reader.start text
  match steps (text.length + 1) ⟨.fresh none reader.modes reader.place, [], reader⟩ with
  | .error flaw => .error flaw
  | .ok progress =>
      match progress.group.parenthesis? with
      | some parenthesis => .error (.alone .groupUnclosed parenthesis)
      | none => .ok (progress.group.content progress.reader.place, progress.reader.objection?)

end Reading

/-- Why a text is refused as a pattern. -/
inductive Defect where
  /-- It is flawed in one place. -/
  | flawed (flaw : Flaw)
  /-- It asks for boundaries of words that only more characters than those of ASCII
  would decide. -/
  | uncompilable
  /-- Its compiled form would be too large. -/
  | tooLarge
  deriving DecidableEq, Repr

/-- How many bytes a compiled pattern may take. -/
def sizeLimit : Nat := 10485760

/-- A defect of a text, in words. -/
def Defect.describe (text : List Char) : Defect -> String
  | .flawed flaw => flaw.describe text
  | .uncompilable => "error building NFA"
  | .tooLarge => "Compiled regex exceeds size limit of " ++ toString sizeLimit ++ " bytes."

/-- The expression that a text writes. -/
def Expression.ofText (text : List Char) : Except Defect Expression :=
  match Reading.read text with
  | .error flaw => .error (.flawed flaw)
  | .ok (piece, objection?) =>
      match piece.nesting.beyond? nestingLimit, objection? with
      | some span, _ => .error (.flawed (.alone .nestedTooDeeply span))
      | none, some flaw => .error (.flawed flaw)
      | none, none =>
          if sizeLimit < piece.expression.size then .error .tooLarge
          else if piece.expression.asksForUnicodeWords then .error .uncompilable
          else .ok piece.expression

end Brainfuck.Text.Pattern
