import Brainfuck.Text.Pattern.Atom
import Brainfuck.Text.Pattern.Reader

/-!
# Escapes

What a backslash and the characters behind it stand for: characters that would
mean something else, characters by number or letter, boundaries, shorthands and
properties.
-/

namespace Brainfuck.Text.Pattern.Escape

/-- Letters for control characters. -/
def control? : Char -> Option Char
  | 'a' => some '\x07'
  | 'f' => some '\x0c'
  | 't' => some '\t'
  | 'n' => some '\n'
  | 'r' => some '\r'
  | 'v' => some '\x0b'
  | _ => none

/-- Letters and signs for places. -/
def place? : Char -> Option Atom
  | 'A' => some .textStart
  | 'z' => some .textStop
  | 'B' => some (.boundary .neither)
  | '<' => some (.boundary .start)
  | '>' => some (.boundary .stop)
  | _ => none

/-- Letters for sets of characters. -/
def shorthand? : Char -> Option Atom
  | 'd' => some (.shorthand .digit false)
  | 'D' => some (.shorthand .digit true)
  | 's' => some (.shorthand .space false)
  | 'S' => some (.shorthand .space true)
  | 'w' => some (.shorthand .word false)
  | 'W' => some (.shorthand .word true)
  | _ => none

/-- Names for boundaries of words. -/
def boundary? (name : List Char) : Option Boundary :=
  match String.ofList name with
  | "start" => some .start
  | "end" => some .stop
  | "start-half" => some .startHalf
  | "end-half" => some .stopHalf
  | _ => none

/-- Whether a character stands for itself behind a backslash: anything of ASCII but
letters and digits, and the two signs that are boundaries. -/
def standsForItself (character : Char) : Bool :=
  character.toNat < 0x80 && !character.isAlphanum && character != '<' && character != '>'

/-- Whether a character may stand in the name of a boundary. -/
def isBoundaryLetter (character : Char) : Bool :=
  character.isAlpha || character == '-'

/-- Reads the name of a boundary in braces, behind the letter for boundaries, whose
backslash stands at `start`. Braces around anything else are none of its concern
and are left alone. -/
def readBoundary (start : Place) (reader : Reader) : Except Flaw (Boundary × Reader) :=
  match reader.head? with
  | some '{' =>
      let opened := reader.proceed
      match opened.head? with
      | none => .error (.alone .boundaryOrCountUnclosed (opened.since start))
      | some letter =>
          if isBoundaryLetter letter then
            let (name, final) := opened.spanSkipping isBoundaryLetter
            match final.head? with
            | some '}' =>
                match boundary? name with
                | some boundary => .ok (boundary, final.advance)
                | none => .error (.alone .boundaryUnknown (final.since opened.place))
            | _ => .error (.alone .boundaryUnclosed (final.since reader.place))
          else .ok (.either, reader)
  | _ => .ok (.either, reader)

/-- The character with a number that hexadecimal digits write. -/
def character? (digits : List Char) : Option Char :=
  let code := Reader.numberOf 16 Reader.hexadecimalValue digits
  if code.isValidChar then some (Char.ofNat code) else none

/-- Reads so many hexadecimal digits. -/
def readDigits : Nat -> Reader -> Except Flaw (List Char × Reader)
  | 0, reader => .ok ([], reader)
  | count + 1, reader =>
      match reader.head? with
      | none => .error (.alone .escapeIncomplete reader.here)
      | some digit =>
          if Reader.isHexadecimal digit then
            (readDigits count reader.proceed).map fun (digits, final) => (digit :: digits, final)
          else .error (.alone .hexadecimalDigitInvalid reader.headSpan)

/-- Reads a character by its number in braces. -/
def readBraced (reader : Reader) : Except Flaw (Atom × Reader) :=
  let opened := reader.proceed
  let (digits, final) := opened.spanSkipping Reader.isHexadecimal
  match final.head? with
  | none => .error (.alone .escapeIncomplete (final.since reader.place))
  | some '}' =>
      let closed := final.proceed
      if digits.isEmpty then .error (.alone .hexadecimalEmpty (closed.since reader.place))
      else
        match character? digits with
        | some character => .ok (.literal character false, closed)
        | none =>
            .error (.alone .hexadecimalNoCharacter (final.since reader.headSpan.stop))
  | some _ => .error (.alone .hexadecimalDigitInvalid final.headSpan)

/-- Reads a character by its number, behind a letter that says how many digits it
has without braces. Two digits write a byte. -/
def readNumbered (count : Nat) (reader : Reader) : Except Flaw (Atom × Reader) :=
  match reader.head? with
  | none => .error (.alone .escapeIncomplete reader.here)
  | some '{' => readBraced reader
  | some _ =>
      match readDigits count reader with
      | .error flaw => .error flaw
      | .ok (digits, final) =>
          match character? digits with
          | some character => .ok (.literal character (count == 2), final)
          | none => .error (.alone .hexadecimalNoCharacter (final.since reader.place))

/-- The name of a property without what makes no difference: a syllable in front,
case, and characters that separate words. -/
def plainName (name : List Char) : List Char :=
  let lower := name.map Char.toLower
  let bare := if ['i', 's'].isPrefixOf lower then lower.drop 2 else lower
  bare.filter fun character =>
    character.toNat < 0x80 && character != ' ' && character != '_' && character != '-'

/-- Whether a name in braces could be that of a value only: it gives no property,
and is one of three abbreviations that are not looked up as properties. -/
def namesValue (name : List Char) : Bool :=
  !name.contains ':' && !name.contains '=' &&
    [['c', 'f'], ['s', 'c'], ['l', 'c']].contains (plainName name)

/-- Reads the name of a property: one letter, or several in braces. -/
def readProperty (reader : Reader) : Except Flaw (Atom × Reader) :=
  match reader.head? with
  | none => .error (.alone .escapeIncomplete reader.here)
  | some '{' =>
      let (name, final) := reader.proceed.spanSkipping (· != '}')
      if final.atEnd then .error (.alone .escapeIncomplete final.here)
      else .ok (.property (namesValue name), final.advance)
  | some '\\' => .error (.alone .propertyInvalid reader.headSpan)
  | some _ => .ok (.property false, reader.proceed)

/-- Reads an escape whose first character behind the backslash stands for the whole
of it, boundaries with a name apart. -/
def readSimple (start : Place) (character : Char) (reader : Reader) :
    Except Flaw (Atom × Reader) :=
  if standsForItself character then .ok (.literal character false, reader)
  else if character = 'b' then
    (readBoundary start reader).map fun (boundary, final) => (.boundary boundary, final)
  else
    match control? character, place? character with
    | some meant, _ => .ok (.literal meant false, reader)
    | none, some atom => .ok (atom, reader)
    | none, none => .error (.alone .escapeUnknown (reader.since start))

/-- Reads an escape, from its backslash on. -/
def read (reader : Reader) : Except Flaw (Atom × Reader) :=
  let start := reader.place
  let escaped := reader.advance
  match escaped.head? with
  | none => .error (.alone .escapeIncomplete (escaped.since start))
  | some 'x' => readNumbered 2 escaped.proceed
  | some 'u' => readNumbered 4 escaped.proceed
  | some 'U' => readNumbered 8 escaped.proceed
  | some 'p' => readProperty escaped.proceed
  | some 'P' => readProperty escaped.proceed
  | some character =>
      if character.isDigit then
        .error (.alone .backreference ⟨start, escaped.headSpan.stop⟩)
      else
        match shorthand? character with
        | some atom => .ok (atom, escaped.advance)
        | none => readSimple start character escaped.advance

end Brainfuck.Text.Pattern.Escape
