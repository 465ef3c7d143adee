import Brainfuck.Text.Pattern.Reader

/-!
# Beginnings of groups

What stands between the parenthesis that opens a group and the content of the
group: nothing, a name, or flags. Flags with nothing behind them are no group;
they switch modes for the rest of the group around them.
-/

namespace Brainfuck.Text.Pattern.Group

/-- What a parenthesis begins. -/
inductive Beginning where
  /-- A group, whose content has the modes of the reader. -/
  | opened
  /-- A switch of modes. -/
  | switched
  deriving DecidableEq, Repr

/-- What an assertion about the surrounding text begins with. -/
def lookArounds : List String := ["?=", "?!", "?<=", "?<!"]

/-- Whether a character may stand in a name. Characters beyond ASCII count as
letters. -/
def isNameCharacter (isFirst : Bool) (character : Char) : Bool :=
  character == '_' || character.isAlpha || 0x80 ≤ character.toNat ||
    (!isFirst && (character.isDigit || character == '.' || character == '[' || character == ']'))

/-- The first character of a name that may not stand in it, and all before it. -/
def splitName (text : List Char) : List Char × List Char :=
  match text with
  | [] => ([], [])
  | first :: rest =>
      if isNameCharacter true first then
        (first :: rest.takeWhile (isNameCharacter false), rest.dropWhile (isNameCharacter false))
      else ([], text)

/-- Reads the name of a group and the sign that closes it. -/
def readName (reader : Reader) : Except Flaw Reader :=
  let (name, _) := splitName reader.rest
  let final := reader.advanceBy name.length
  match final.head? with
  | none => .error (.alone .groupNameUnclosed final.here)
  | some '>' =>
      let span := final.since reader.place
      if name.isEmpty then .error (.alone .groupNameEmpty span)
      else
        match final.names.lookup name with
        | some earlier => .error ⟨.groupNameRepeated, span, some earlier⟩
        | none =>
            let closed := final.advance
            .ok { closed with names := (name, span) :: closed.names }
  | some _ => .error (.alone .groupNameInvalid final.headSpan)

/-- A flag or, given by `none`, the sign that negates the flags behind it. -/
abbrev Sign := Option Flag

/-- The flag or sign that the next character stands for. -/
def sign? : Char -> Option Sign
  | '-' => some none
  | letter => (Flag.ofLetter? letter).map some

/-- The mistake of repeating a sign. -/
def repeated : Sign -> Mistake
  | none => .negationRepeated
  | some _ => .flagRepeated

/-- Reads flags up to the character that ends them, given the ones read before, the
latest first, if there are no more than so many characters. -/
def readFlags (before : List (Sign × Span)) : Nat -> Reader ->
    Except Flaw (List (Sign × Span) × Reader)
  | 0, reader => .error (.alone .flagMissing reader.here)
  | count + 1, reader =>
      match reader.head? with
      | none => .error (.alone .flagMissing reader.here)
      | some character =>
          if character = ':' ∨ character = ')' then
            match before with
            | (none, span) :: _ => .error (.alone .negationDangling span)
            | _ => .ok (before.reverse, reader)
          else
            match sign? character with
            | none => .error (.alone .flagUnknown reader.headSpan)
            | some sign =>
                match before.lookup sign with
                | some earlier => .error ⟨repeated sign, reader.headSpan, some earlier⟩
                | none => readFlags ((sign, reader.headSpan) :: before) count reader.advance

/-- Reads flags and the character behind them. -/
def readSwitch (questionMark : Span) (reader : Reader) : Except Flaw (Beginning × Reader) :=
  match readFlags [] (reader.rest.length + 1) reader with
  | .error flaw => .error flaw
  | .ok (signs, ended) =>
      let final := ended.advance
      let switched := { final with modes := final.modes.following true (signs.map (·.1)) }
      if ended.head? = some ':' then .ok (.opened, switched)
      else if signs.isEmpty then .error (.alone .operandMissing questionMark)
      else .ok (.switched, switched)

/-- Reads the beginning of a group, from its parenthesis on. -/
def read (reader : Reader) : Except Flaw (Beginning × Reader) :=
  let inner := reader.proceed
  match lookArounds.findSome? inner.after? with
  | some past => .error (.alone .lookAround (past.since reader.place))
  | none =>
      match (inner.after? "?P<").or (inner.after? "?<"), inner.after? "?" with
      | some named, _ => (readName named).map (.opened, ·)
      | none, some flagged =>
          if flagged.atEnd then .error (.alone .groupUnclosed reader.headSpan)
          else readSwitch inner.here flagged
      | none, none => .ok (.opened, inner)

end Brainfuck.Text.Pattern.Group
