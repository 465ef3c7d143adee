import Brainfuck.CommandLine.Separator
import Brainfuck.CommandLine.Slot
import Brainfuck.Event
import Brainfuck.Machine.Codec

/-!
# Invocations

What a command line asks for: an action on payload words, and perhaps a level
for the log. The level comes before the subcommand and the codec directly after
it; from the first other word on, every word is payload. Mistakes are refused in
the order in which the reader comes to a decision about them.
-/

namespace Brainfuck.CommandLine

/-- An action with what it needs besides the payload. -/
inductive Action where
  | encode
  | decode (codec : Codec)
  | check
  deriving DecidableEq, Repr

/-- What a command line asks for. -/
structure Invocation where
  logLevel? : Option Severity
  action : Action
  words : List String
  deriving DecidableEq, Repr

/-- The text that an action works on: its words, joined by single spaces. -/
def Invocation.payload (invocation : Invocation) : List Char :=
  (String.intercalate " " invocation.words).toList

/-- Levels are read by their names, in whichever case. -/
def levelReading : Reading Severity where
  setting := .logLevel
  read value :=
    match Severity.ofName? value with
    | some level => .ok level
    | none => .error (.valueInvalid .logLevel value)

/-- Codecs are read by their exact names; an empty value counts as none. -/
def codecReading : Reading Codec where
  setting := .codec
  read value :=
    match value with
    | "ascii" => .ok .ascii
    | "latin1" => .ok .latin1
    | "utf8" => .ok .utf8
    | "" => .error (.valueMissing .codec)
    | other => .error (.valueInvalid .codec other)

/-- What a word between a subcommand and its payload is taken for. -/
inductive PayloadLead where
  | help
  | helpWithValue (value : String)
  | codec (attached? : Option String)
  | separator
  | literal
  deriving DecidableEq, Repr

/-- Requests for help are known everywhere, codecs only where one is taken. A
cluster asks for help if it holds the letter of help and nothing else. -/
def PayloadLead.ofShape (takesCodec : Bool) : Shape -> PayloadLead
  | .separator => .separator
  | .long name attached? =>
      if name = "help" then
        match attached? with
        | none => .help
        | some value => .helpWithValue value
      else if name = Setting.codec.name ∧ takesCodec = true then .codec attached?
      else .literal
  | .short letter others =>
      if letter = 'h' ∧ others.all (· = 'h') = true then .help else .literal
  | .plain => .literal

/-- The payload words, once what is pending about the codec has been looked at. -/
def concludePayload (codec : Slot Codec) (words : List String) :
    Except Refusal (Option Codec × List String) :=
  match codec.settle codecReading with
  | .error refusal => .error refusal
  | .ok settled => .ok (settled.settled?, words)

/-- Reads the words after a subcommand: options up to the first literal word or
the separator, which is dropped, and payload from there on. A literal word that
directly follows the codec option is its value. -/
def readPayload (takesCodec : Bool) (codec : Slot Codec) :
    List String -> Except Refusal (Option Codec × List String)
  | [] => concludePayload codec []
  | word :: rest =>
      match PayloadLead.ofShape takesCodec (Shape.ofWord word) with
      | .help => codec.refuse codecReading .helpRequested
      | .helpWithValue value => .error (.valueUnwanted "--help" value)
      | .separator => concludePayload codec rest
      | .codec attached? =>
          match codec.name codecReading attached? with
          | .error refusal => .error refusal
          | .ok named => readPayload takesCodec named rest
      | .literal =>
          match codec.pending with
          | .awaiting => readPayload takesCodec (codec.hold word) rest
          | _ => concludePayload codec (word :: rest)

/-- Reads the words after the name of a subcommand. The codec is ASCII unless
another one is asked for. -/
def readSubcommand (subcommand : Subcommand) (words : List String) :
    Except Refusal (Action × List String) :=
  match subcommand with
  | .encode => (readPayload false .vacant words).map fun (_, payload) => (.encode, payload)
  | .check => (readPayload false .vacant words).map fun (_, payload) => (.check, payload)
  | .decode =>
      (readPayload true .vacant words).map fun (codec?, payload) =>
        (.decode (codec?.getD .ascii), payload)

/-- The word that asks for help on a subcommand. -/
def helpWord : String := "help"

/-- Whether a word begins a subcommand, that of help included. -/
def namesSubcommand (word : String) : Bool :=
  word == helpWord || (Subcommand.ofName? word).isSome

/-- Help is given on everything or on one subcommand; subcommands have none of
their own. -/
def helpOn : List String -> Refusal
  | [] => .helpRequested
  | [topic] => if namesSubcommand topic then .helpRequested else .subcommandUnknown
  | _ => .subcommandUnknown

/-- A word after a separator begins no subcommand. One that would have done so
elsewhere is unexpected there; any other names no subcommand in either place. -/
def refuseSeparated (word : String) : Refusal :=
  if namesSubcommand word then .argumentUnexpected word else .subcommandUnknown

/-- What a word before the subcommand is taken for. -/
inductive GlobalLead where
  | help
  | version
  | flagWithValue (flag value : String)
  | level (attached? : Option String)
  | separator
  | unexpected (argument : String)
  | plain
  deriving DecidableEq, Repr

/-- Long options are known by their whole names. Of a cluster only the first
letter counts, since help and the version are given at once. -/
def GlobalLead.ofShape : Shape -> GlobalLead
  | .separator => .separator
  | .long name attached? =>
      if name = Setting.logLevel.name then .level attached?
      else if name = "help" ∨ name = "version" then
        match attached? with
        | some value => .flagWithValue ("--" ++ name) value
        | none => if name = "help" then .help else .version
      else .unexpected ("--" ++ name)
  | .short letter _ =>
      if letter = 'h' then .help
      else if letter = 'V' then .version
      else .unexpected (String.ofList ['-', letter])
  | .plain => .plain

/-- Refuses a command line that ends without a subcommand. -/
def refuseIncomplete (level : Slot Severity) : Refusal :=
  match level.settle levelReading with
  | .error refusal => refusal
  | .ok settled =>
      match settled.settled? with
      | none => .nothingGiven
      | some _ => .subcommandMissing

namespace Invocation

/-- The invocation of a subcommand, once what is pending about the level has
been looked at. -/
def ofSubcommand (level : Slot Severity) (subcommand : Subcommand) (words : List String) :
    Except Refusal Invocation :=
  match readSubcommand subcommand words with
  | .error refusal => .error refusal
  | .ok (action, payload) =>
      match level.settle levelReading with
      | .error refusal => .error refusal
      | .ok settled => .ok ⟨settled.settled?, action, payload⟩

/-- Reads the words before the subcommand, and then the subcommand. A plain word
that directly follows the level option is its value. No word is accepted after
a separator here. -/
def readWords (level : Slot Severity) : List String -> Except Refusal Invocation
  | [] => .error (refuseIncomplete level)
  | word :: rest =>
      match GlobalLead.ofShape (Shape.ofWord word) with
      | .help => level.refuse levelReading .helpRequested
      | .version => level.refuse levelReading .versionRequested
      | .flagWithValue flag value => .error (.valueUnwanted flag value)
      | .unexpected argument => .error (.argumentUnexpected argument)
      | .separator =>
          match rest with
          | [] => .error (refuseIncomplete level)
          | separated :: _ => .error (refuseSeparated separated)
      | .level attached? =>
          match level.name levelReading attached? with
          | .error refusal => .error refusal
          | .ok named => readWords named rest
      | .plain =>
          match level.pending with
          | .awaiting => readWords (level.hold word) rest
          | _ =>
              match Subcommand.ofName? word with
              | some subcommand => ofSubcommand level subcommand rest
              | none =>
                  if word = helpWord then .error (helpOn rest)
                  else .error .subcommandUnknown

/-- Reads all arguments, once a separator at the head of the payload has been
doubled. The first argument names the program and is not looked at. -/
def ofArguments (arguments : List String) : Except Refusal Invocation :=
  readWords .vacant (protectArguments arguments).tail

end Invocation

end Brainfuck.CommandLine
