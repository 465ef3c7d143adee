import Brainfuck.Proofs.CommandLine.Literal

/-!
# The choice of a codec

A decoding takes an option for its codec, and from there on payload words as they were
written. The separator is protected past the option, and the reader drops it behind
the option: the two agree on where the option ends, because the word that follows is
not taken for another one. Only what the first payload word looks like can be in the
way, `NamesCodec` and `AsksForHelp`; `ofArguments_decodes_literal` puts no condition
on the others.
-/

namespace Brainfuck.CommandLine

/-- The word is the option of the codec, alone or with something attached to it. -/
inductive NamesCodec : String -> Prop where
  | alone : NamesCodec "--codec"
  | attached (value : String) : NamesCodec ("--codec=" ++ value)

namespace PayloadLead

/-- Whether a lead is the option of the codec. -/
def choosesCodec : PayloadLead -> Bool
  | .codec _ => true
  | _ => false

/-- The option of the codec is known by its long name. -/
theorem choosesCodec_ofShape_iff {shape : Shape} :
    (ofShape true shape).choosesCodec = true ↔ ∃ attached?, shape = .long "codec" attached? := by
  cases shape with
  | separator | plain => simp [ofShape, choosesCodec]
  | long name attached? =>
      by_cases help : name = "help"
      · cases attached? <;> simp [ofShape, choosesCodec, help]
      · by_cases codec : name = "codec"
        · simp [ofShape, choosesCodec, codec, Setting.name]
        · simp [ofShape, choosesCodec, help, codec, Setting.name]
  | short letter others =>
      simp only [ofShape]
      split <;> simp [choosesCodec]

/-- The words that are taken for the option of the codec are those that name it. -/
theorem choosesCodec_iff {word : String} :
    (ofShape true (Shape.ofWord word)).choosesCodec = true ↔ NamesCodec word := by
  rw [choosesCodec_ofShape_iff]
  constructor
  · rintro ⟨_ | value, shape⟩
    · obtain rfl := Shape.eq_of_letters? (congrArg Shape.letters? shape)
      exact .alone
    · obtain rfl := Shape.eq_of_letters? (congrArg Shape.letters? shape)
      exact .attached value
  · intro names
    cases names with
    | alone => exact ⟨none, rfl⟩
    | attached value => exact ⟨some value, ofWord_attachedCodec value⟩

end PayloadLead

/-- Whether a word names the codec is decided by what it is taken for. -/
instance (word : String) : Decidable (NamesCodec word) :=
  decidable_of_iff ((PayloadLead.ofShape true (Shape.ofWord word)).choosesCodec = true)
    PayloadLead.choosesCodec_iff

example : ¬ NamesCodec "--codecs=utf8" := by decide

/-- Words that begin like codec options begin with one that names the codec. -/
theorem namesCodec_of_codecOptions {first : String} {others : List String}
    (looks : CodecOptions (first :: others)) : NamesCodec first := by
  cases looks with
  | separate => exact .alone
  | attached value => exact .attached value

/-- The first word may stand at the head of a decoding's payload: it neither asks for
help nor names the codec. -/
def OpensPayload (first : String) : Prop :=
  ¬ AsksForHelp first ∧ ¬ NamesCodec first

instance (first : String) : Decidable (OpensPayload first) :=
  inferInstanceAs (Decidable (¬ AsksForHelp first ∧ ¬ NamesCodec first))

/-- A word that looks like no option may stand at the head of a payload. -/
theorem opensPayload_of_plain {first : String} (plain : Shape.ofWord first = .plain) :
    OpensPayload first := by
  constructor
  · rw [← @PayloadLead.requestsHelp_iff true, plain]
    exact Bool.false_ne_true
  · rw [← PayloadLead.choosesCodec_iff, plain]
    exact Bool.false_ne_true

/-- Where no value is awaited, words that may stand at the head of a payload are one. -/
theorem readPayload_opened {codec : Slot Codec} (settled : codec.pending ≠ .awaiting)
    {words : List String} (opens : ∀ first ∈ words.head?, OpensPayload first) :
    readPayload true codec (protectPayload words) = concludePayload codec words := by
  obtain kept | ⟨options, rest, looks, rfl⟩ := protectPayload_cases words
  · rw [kept]
    cases words with
    | nil => rfl
    | cons word rest =>
        obtain ⟨asksNothing, namesNothing⟩ := opens word rfl
        have choosesNothing : ∀ attached?,
            PayloadLead.ofShape true (Shape.ofWord word) ≠ .codec attached? := by
          intro attached? lead
          apply namesNothing
          rw [← PayloadLead.choosesCodec_iff, lead]
          rfl
        have literal :=
          PayloadLead.eq_literal (ne_separator_of_kept kept) asksNothing choosesNothing
        exact readPayload_literal literal settled rest
  · cases options with
    | nil => rw [List.nil_append, protectPayload_separator, readPayload_separator]
    | cons first others =>
        obtain ⟨-, namesNothing⟩ := opens first rfl
        exact absurd (namesCodec_of_codecOptions looks) namesNothing

/-- Behind the option for its codec, the words of a decoding arrive as they were
written. -/
theorem readPayload_behind_codec {codec? : Option Codec} {chosen : List String}
    (option : CodecOption codec? chosen) {words : List String}
    (opens : ∀ first ∈ words.head?, OpensPayload first) :
    readPayload true .vacant (protectPayload (chosen ++ words)) = .ok (codec?, words) := by
  obtain ⟨slot, settled, onward, concludes⟩ := option.reads
  rw [protectPayload_append option.codecOptions, onward, readPayload_opened settled opens,
    concludes]

namespace Invocation

/-- A decoding is carried out with the codec that the option before its payload names,
or as ASCII without one, on all words behind that option as they were written: whatever
they are, and none at all included, if the first neither asks for help nor names the
codec. -/
theorem ofArguments_decodes_literal (program : String) {level? : Option Severity}
    {options : List String} (level : LevelOption level? options) {spelling : String}
    (spelled : spelling ∈ ["decode", "d"]) {codec? : Option Codec} {chosen : List String}
    (option : CodecOption codec? chosen) {words : List String}
    (opens : ∀ first ∈ words.head?, OpensPayload first) :
    ofArguments (program :: (options ++ spelling :: (chosen ++ words))) =
      .ok ⟨level?, .decode (codec?.getD .ascii), words⟩ := by
  have decodes : ∀ name ∈ ["decode", "d"], Subcommand.ofName? name = some .decode := by decide
  rw [ofArguments_opened program level (decodes spelling spelled), readSubcommand,
    readPayload_behind_codec option opens]
  rfl

/-- Separators in a row, and what looks like the option of the codec or like a request
for help behind them, are payload of a decoding. -/
theorem ofArguments_decodes_literal_separated :
    Severity.ofName? "debug" = some .debug ∧ codecReading.read "latin1" = .ok .latin1 ∧
      ofArguments ["bfa", "--log-level", "debug", "d", "--codec=latin1", "--", "--", "--codec",
          "utf8", "-h"] =
        .ok ⟨some .debug, .decode .latin1, ["--", "--", "--codec", "utf8", "-h"]⟩ := by
  have level : Severity.ofName? "debug" = some .debug := by decide
  have codec : codecReading.read "latin1" = .ok .latin1 := rfl
  have opens : ∀ first ∈ ["--", "--", "--codec", "utf8", "-h"].head?, OpensPayload first := by
    decide
  exact ⟨level, codec,
    ofArguments_decodes_literal "bfa" (.separate level) (by decide) (.attached codec) opens⟩

end Invocation

end Brainfuck.CommandLine
