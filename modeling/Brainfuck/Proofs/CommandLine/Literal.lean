import Brainfuck.Proofs.CommandLine.Opening

/-!
# Payload words are literal

A subcommand that takes no codec hands the words behind it on as they were written.
There is one exception, since the separator is protected without regard to the
subcommand: words that look like codec options are passed over although they are
payload here, and a separator behind them is doubled although it would not have been
dropped. `ofArguments_literal` says when words arrive unchanged, and as what they
arrive otherwise.
-/

namespace Brainfuck.CommandLine

namespace PayloadLead

/-- Only the separator is taken for it. -/
theorem ofShape_eq_separator_iff {takesCodec : Bool} {shape : Shape} :
    ofShape takesCodec shape = .separator ↔ shape = .separator := by
  rcases shape with _ | ⟨name, _ | value⟩ | _ | _ <;> grind [ofShape]

/-- Where no codec is taken, no word is taken for one. -/
theorem ofShape_false_ne_codec (shape : Shape) (attached? : Option String) :
    ofShape false shape ≠ .codec attached? := by
  rcases shape with _ | ⟨name, _ | value⟩ | _ | _ <;> grind [ofShape]

/-- A word is payload if it neither asks for help nor is the separator, and is not
taken for the option of the codec. -/
theorem eq_literal {takesCodec : Bool} {word : String} (distinct : word ≠ CommandLine.separator)
    (asksNothing : ¬ AsksForHelp word)
    (choosesNothing : ∀ attached?, ofShape takesCodec (Shape.ofWord word) ≠ .codec attached?) :
    ofShape takesCodec (Shape.ofWord word) = .literal := by
  have requestsNothing : ¬ (ofShape takesCodec (Shape.ofWord word)).requestsHelp = true :=
    requestsHelp_iff.not.mpr asksNothing
  cases lead : ofShape takesCodec (Shape.ofWord word) with
  | help | helpWithValue => simp [lead, requestsHelp] at requestsNothing
  | codec attached? => exact absurd lead (choosesNothing attached?)
  | separator =>
      have shape := ofShape_eq_separator_iff.mp lead
      exact absurd (Shape.eq_of_letters? (congrArg Shape.letters? shape)) distinct
  | literal => rfl

/-- A word of the form of a codec option is payload where no codec is taken. -/
theorem eq_literal_of_codecOptions {first : String} {others : List String}
    (looks : CodecOptions (first :: others)) :
    ofShape false (Shape.ofWord first) = .literal := by
  cases looks with
  | separate => rfl
  | attached value =>
      rw [ofWord_attachedCodec]
      rfl

end PayloadLead

/-- Words that look like codec options, at least one of them, stand before a separator. -/
def SeparatesOptions (words : List String) : Prop :=
  ∃ options rest, CodecOptions options ∧ options ≠ [] ∧ words = options ++ separator :: rest

/-- Words that protection leaves alone do not begin with the separator. -/
theorem ne_separator_of_kept {word : String} {rest : List String}
    (kept : protectPayload (word :: rest) = word :: rest) : word ≠ separator := by
  rintro rfl
  simp [protectPayload_separator] at kept

/-- Payload words arrive as they are unless codec options stand before a separator. -/
theorem readPayload_protected {words : List String}
    (asksNothing : ∀ first ∈ words.head?, ¬ AsksForHelp first)
    (unseparated : ¬ SeparatesOptions words) :
    readPayload false .vacant (protectPayload words) = .ok (none, words) := by
  obtain kept | ⟨options, rest, looks, rfl⟩ := protectPayload_cases words
  · rw [kept]
    cases words with
    | nil => rfl
    | cons word rest =>
        have literal := PayloadLead.eq_literal (ne_separator_of_kept kept)
          (asksNothing word rfl) (PayloadLead.ofShape_false_ne_codec _)
        exact readPayload_literal literal (by decide) rest
  · obtain rfl | nonempty := eq_or_ne options []
    · exact readPayload_separator false .vacant (separator :: rest)
    · exact absurd ⟨options, rest, looks, nonempty, rfl⟩ unseparated

/-- A separator behind codec options arrives twice where no codec is taken. -/
theorem readPayload_doubled {options : List String} (looks : CodecOptions options)
    (nonempty : options ≠ []) (rest : List String) :
    readPayload false .vacant (protectPayload (options ++ separator :: rest)) =
      .ok (none, options ++ separator :: separator :: rest) := by
  rw [protectPayload_append looks, protectPayload_separator]
  obtain ⟨first, others, rfl⟩ := List.exists_cons_of_ne_nil nonempty
  exact readPayload_literal (PayloadLead.eq_literal_of_codecOptions looks) (by decide) _

/-- The subcommands that take no codec, by their spellings. -/
def plainSubcommands : List (String × Action) :=
  [("encode", .encode), ("e", .encode), ("check", .check), ("c", .check)]

/-- Behind a subcommand without a codec stand payload words only. -/
theorem readSubcommand_plain {spelling : String} {action : Action}
    (plain : (spelling, action) ∈ plainSubcommands) :
    ∃ subcommand, Subcommand.ofName? spelling = some subcommand ∧
      ∀ words, readSubcommand subcommand words =
        (readPayload false .vacant words).map fun (_, payload) => (action, payload) := by
  simp only [plainSubcommands, List.mem_cons, Prod.mk.injEq, List.not_mem_nil, or_false] at plain
  rcases plain with ⟨rfl, rfl⟩ | ⟨rfl, rfl⟩ | ⟨rfl, rfl⟩ | ⟨rfl, rfl⟩
  · exact ⟨.encode, rfl, fun _ => rfl⟩
  · exact ⟨.encode, rfl, fun _ => rfl⟩
  · exact ⟨.check, rfl, fun _ => rfl⟩
  · exact ⟨.check, rfl, fun _ => rfl⟩

namespace Invocation

/-- The invocation of a subcommand without a codec. -/
theorem ofArguments_plain (program : String) {level? : Option Severity} {options : List String}
    (level : LevelOption level? options) {spelling : String} {action : Action}
    (plain : (spelling, action) ∈ plainSubcommands) {words read : List String}
    (reads : readPayload false .vacant (protectPayload words) = .ok (none, read)) :
    ofArguments (program :: (options ++ spelling :: words)) = .ok ⟨level?, action, read⟩ := by
  obtain ⟨subcommand, named, readSubcommand_eq⟩ := readSubcommand_plain plain
  rw [ofArguments_opened program level named, readSubcommand_eq, reads]
  rfl

/-- A subcommand without a codec is carried out on all words behind it, whatever they
are, if the first does not ask for help. They are the very words that were written
unless codec options stand before a separator; then that separator is there twice. -/
theorem ofArguments_literal (program : String) {level? : Option Severity}
    {options : List String} (level : LevelOption level? options) {spelling : String}
    {action : Action} (plain : (spelling, action) ∈ plainSubcommands) {words : List String}
    (asksNothing : ∀ first ∈ words.head?, ¬ AsksForHelp first) :
    ∃ read, ofArguments (program :: (options ++ spelling :: words)) =
        .ok ⟨level?, action, read⟩ ∧
      (read = words ↔ ¬ SeparatesOptions words) ∧
      ∀ leading rest, CodecOptions leading -> leading ≠ [] ->
        words = leading ++ separator :: rest ->
        read = leading ++ separator :: separator :: rest := by
  by_cases separates : SeparatesOptions words
  · obtain ⟨leading, rest, looks, nonempty, rfl⟩ := separates
    have reads := readPayload_doubled looks nonempty rest
    refine ⟨_, ofArguments_plain program level plain reads, ?_, ?_⟩
    · have longer : leading ++ separator :: separator :: rest ≠ leading ++ separator :: rest := by
        simp
      exact iff_of_false longer fun unseparated =>
        unseparated ⟨leading, rest, looks, nonempty, rfl⟩
    · intro others behind alsoLooks alsoNonempty equal
      -- Another way to cut the words at a separator is read in the same way.
      have alsoReads := readPayload_doubled alsoLooks alsoNonempty behind
      rw [← equal, reads] at alsoReads
      simpa using alsoReads
  · have reads := readPayload_protected asksNothing separates
    refine ⟨words, ofArguments_plain program level plain reads, iff_of_true rfl separates, ?_⟩
    intro leading rest looks nonempty equal
    exact absurd ⟨leading, rest, looks, nonempty, equal⟩ separates

/-- A separator at the head, and what looks like an option, a request for help or a
subcommand behind it, are payload of an encoding. -/
theorem ofArguments_literal_hyphened :
    ∃ read, ofArguments ["bfa", "--log-level=Info", "e", "--", "--codec=x", "--", "-h", "d"] =
        .ok ⟨some .info, .encode, read⟩ ∧
      (read = ["--", "--codec=x", "--", "-h", "d"] ↔
        ¬ SeparatesOptions ["--", "--codec=x", "--", "-h", "d"]) ∧
      ∀ leading rest, CodecOptions leading -> leading ≠ [] ->
        ["--", "--codec=x", "--", "-h", "d"] = leading ++ separator :: rest ->
        read = leading ++ separator :: separator :: rest := by
  have level : Severity.ofName? "Info" = some .info := by decide
  exact ofArguments_literal "bfa" (.attached level) (by decide) (by decide)

/-- Words that do not ask for help do not always arrive as they were written. -/
theorem not_forall_ofArguments_literal :
    ¬ ∀ words : List String, (∀ first ∈ words.head?, ¬ AsksForHelp first) ->
      ofArguments ("bfa" :: "e" :: words) = .ok ⟨none, .encode, words⟩ := by
  intro literal
  have promised := literal ["--codec", "x", "--", "y"] (by decide)
  have found : ofArguments ["bfa", "e", "--codec", "x", "--", "y"] =
      .ok ⟨none, .encode, ["--codec", "x", "--", "--", "y"]⟩ := rfl
  rw [found] at promised
  simp at promised

end Invocation

end Brainfuck.CommandLine
