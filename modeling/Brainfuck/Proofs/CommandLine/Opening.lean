import Brainfuck.Proofs.CommandLine.Spelling

/-!
# What stands before a payload

A command line opens with the name of the program, perhaps an option for the level
of the log, and a subcommand: `Invocation.ofArguments_opened` says what is left to
read then. Behind the subcommand the separator is protected past everything that
looks like a codec option, whether or not the subcommand takes one:
`protectPayload_cases`.
-/

namespace Brainfuck.CommandLine

/-- An option for the level of the log, or none, as the words it is written in. -/
inductive LevelOption : Option Severity -> List String -> Prop where
  | absent : LevelOption none []
  | separate {value : String} {level : Severity} (read : Severity.ofName? value = some level) :
      LevelOption (some level) ["--log-level", value]
  | attached {value : String} {level : Severity} (read : Severity.ofName? value = some level) :
      LevelOption (some level) ["--log-level=" ++ value]

/-- Options for a codec, however many, as the words they are written in. -/
inductive CodecOptions : List String -> Prop where
  | absent : CodecOptions []
  | separate (value : String) {others : List String} (following : CodecOptions others) :
      CodecOptions ("--codec" :: value :: others)
  | attached (value : String) {others : List String} (following : CodecOptions others) :
      CodecOptions (("--codec=" ++ value) :: others)

/-- An option for one codec, or none, as the words it is written in. -/
inductive CodecOption : Option Codec -> List String -> Prop where
  | absent : CodecOption none []
  | separate {value : String} {codec : Codec} (read : codecReading.read value = .ok codec) :
      CodecOption (some codec) ["--codec", value]
  | attached {value : String} {codec : Codec} (read : codecReading.read value = .ok codec) :
      CodecOption (some codec) ["--codec=" ++ value]

/-- An option for one codec looks like codec options. -/
theorem CodecOption.codecOptions {codec? : Option Codec} {options : List String}
    (option : CodecOption codec? options) : CodecOptions options := by
  cases option with
  | absent => exact .absent
  | separate => exact .separate _ .absent
  | attached => exact .attached _ .absent

/-- A word with a value attached to the name of the codec has that form. -/
theorem ofWord_attachedCodec (value : String) :
    Shape.ofWord ("--codec=" ++ value) = .long "codec" (some value) := by
  have opened : "--codec=" = "--" ++ "codec" ++ "=" := by decide
  rw [opened, Shape.ofWord_attached (by decide) value]

/-- Nothing is protected within codec options. -/
theorem protectPayload_append {options : List String} (looks : CodecOptions options)
    (rest : List String) : protectPayload (options ++ rest) = options ++ protectPayload rest := by
  induction looks with
  | absent => rfl
  | separate value following inductionHypothesis =>
      rw [List.cons_append, List.cons_append, protectPayload, inductionHypothesis]
      rfl
  | @attached value others following inductionHypothesis =>
      have shape := ofWord_attachedCodec value
      have distinct : "--codec=" ++ value ≠ "--codec" := by
        intro equal
        rw [equal] at shape
        have bare : Shape.ofWord "--codec" = .long "codec" none := by decide
        simp [bare] at shape
      rw [List.cons_append, protectPayload.eq_3 _ _ fun _ _ equal => absurd equal distinct, shape]
      simp only [inductionHypothesis, List.cons_append]

/-- A separator at the head of a payload is doubled. -/
theorem protectPayload_separator (rest : List String) :
    protectPayload (separator :: rest) = separator :: separator :: rest := rfl

/-- Words are either protected at a separator behind codec options, or left alone. -/
theorem protectPayload_cases (words : List String) :
    protectPayload words = words ∨
      ∃ options rest, CodecOptions options ∧ words = options ++ separator :: rest := by
  fun_induction protectPayload words with
  | case1 => exact .inl rfl
  | case2 value rest inductionHypothesis =>
      obtain kept | ⟨options, behind, looks, rfl⟩ := inductionHypothesis
      · exact .inl (by rw [kept])
      · exact .inr ⟨_, behind, .separate value looks, rfl⟩
  | case3 word rest bare value shape inductionHypothesis =>
      obtain rfl := Shape.eq_of_letters? (congrArg Shape.letters? shape)
      obtain kept | ⟨options, behind, looks, rfl⟩ := inductionHypothesis
      · exact .inl (by rw [kept])
      · exact .inr ⟨_, behind, .attached value looks, rfl⟩
  | case4 word rest bare shape =>
      obtain rfl := Shape.eq_of_letters? (congrArg Shape.letters? shape)
      exact .inr ⟨[], rest, .absent, rfl⟩
  | case5 => exact .inl rfl

/-- The words that name subcommands. -/
def Subcommand.names : List String :=
  ["encode", "e", "decode", "d", "check", "c"]

/-- No other words name a subcommand. -/
theorem Subcommand.mem_names {word : String} {subcommand : Subcommand}
    (named : ofName? word = some subcommand) : word ∈ names := by
  unfold ofName? at named
  split at named <;> simp [names] at named ⊢

/-- The names of subcommands have no hyphens in front. -/
theorem Subcommand.ofWord_eq_plain {word : String} {subcommand : Subcommand}
    (named : ofName? word = some subcommand) : Shape.ofWord word = .plain := by
  have plain : ∀ name ∈ names, Shape.ofWord name = .plain := by decide
  exact plain word (mem_names named)

/-- A word with hyphens in front names no subcommand. -/
theorem Subcommand.ofName?_eq_none {word : String} (marked : Shape.ofWord word ≠ .plain) :
    ofName? word = none := by
  cases named : ofName? word with
  | none => rfl
  | some subcommand => exact absurd (ofWord_eq_plain named) marked

/-- A value that can be read as a level does not name a subcommand. -/
theorem ofName?_eq_none_of_level {value : String} {level : Severity}
    (read : Severity.ofName? value = some level) : Subcommand.ofName? value = none := by
  have unreadable : ∀ name ∈ Subcommand.names, Severity.ofName? name = none := by decide
  cases named : Subcommand.ofName? value with
  | none => rfl
  | some subcommand => simp [unreadable value (Subcommand.mem_names named)] at read

/-- A value that can be read as a level has no hyphens in front. -/
theorem ofWord_eq_plain_of_level {value : String} {level : Severity}
    (read : Severity.ofName? value = some level) : Shape.ofWord value = .plain := by
  have spelled : level.name.toList = value.toList.map Char.toUpper := by
    have found := List.find?_some read
    simpa [← String.toList_inj] using found
  refine Shape.spelled_iff.mp (.plain ?_)
  intro letter others hyphened
  rw [hyphened] at spelled
  cases level <;> simp [Severity.name] at spelled

/-- A level is read by its name. -/
theorem levelReading_read {value : String} {level : Severity}
    (read : Severity.ofName? value = some level) : levelReading.read value = .ok level := by
  simp only [levelReading, read]

/-- A value that can be read is accepted where there is none yet. -/
theorem Slot.accept_of_read {α : Type} {reading : Reading α} {value : String} {meant : α}
    (read : reading.read value = .ok meant) (pending : Pending) :
    Slot.accept ⟨none, pending⟩ reading value = .ok ⟨some meant, .nothing⟩ := by
  simp only [accept, read]

/-- A word with a value attached to the name of the level has that form. -/
theorem ofWord_attachedLevel (value : String) :
    Shape.ofWord ("--log-level=" ++ value) = .long "log-level" (some value) := by
  have opened : "--log-level=" = "--" ++ "log-level" ++ "=" := by decide
  rw [opened, Shape.ofWord_attached (by decide) value]

/-- A word that names no subcommand is passed over when the separator is protected. -/
theorem protectSeparator_of_none {word : String} (unnamed : Subcommand.ofName? word = none)
    (rest : List String) : protectSeparator (word :: rest) = word :: protectSeparator rest := by
  simp only [protectSeparator, unnamed]

/-- Behind a subcommand its payload is protected. -/
theorem protectSeparator_of_some {word : String} {subcommand : Subcommand}
    (named : Subcommand.ofName? word = some subcommand) (rest : List String) :
    protectSeparator (word :: rest) = word :: protectPayload rest := by
  simp only [protectSeparator, named]

namespace Invocation

/-- What is pending about the level is looked at behind the payload. -/
theorem ofSubcommand_of_settle {level settled : Slot Severity}
    (settles : level.settle levelReading = .ok settled) (subcommand : Subcommand)
    (words : List String) :
    ofSubcommand level subcommand words =
      (readSubcommand subcommand words).map
        fun (action, payload) => ⟨settled.settled?, action, payload⟩ := by
  cases read : readSubcommand subcommand words <;>
    simp only [ofSubcommand, read, settles, Except.map]

/-- A subcommand is reached where no value is awaited. -/
theorem readWords_of_named {level settled : Slot Severity}
    (settles : level.settle levelReading = .ok settled) {word : String}
    {subcommand : Subcommand} (named : Subcommand.ofName? word = some subcommand)
    (rest : List String) :
    readWords level (word :: rest) =
      (readSubcommand subcommand rest).map
        fun (action, payload) => ⟨settled.settled?, action, payload⟩ := by
  have plain := Subcommand.ofWord_eq_plain named
  rw [← ofSubcommand_of_settle settles]
  rcases level with ⟨settled?, _ | _ | value⟩
  · simp only [readWords, plain, GlobalLead.ofShape, named]
  · simp [Slot.settle] at settles
  · simp only [readWords, plain, GlobalLead.ofShape, named]

/-- The name of the level's option waits for a value. -/
theorem readWords_levelName (rest : List String) :
    readWords .vacant ("--log-level" :: rest) = readWords ⟨none, .awaiting⟩ rest := rfl

/-- A plain word is held back where a value is awaited. -/
theorem readWords_awaited {value : String} (plain : Shape.ofWord value = .plain)
    (rest : List String) :
    readWords ⟨none, .awaiting⟩ (value :: rest) = readWords ⟨none, .holding value⟩ rest := by
  simp only [readWords, plain, GlobalLead.ofShape, Slot.hold]

/-- A level attached to the name of its option is read on the spot. -/
theorem readWords_attachedLevel {value : String} {level : Severity}
    (read : Severity.ofName? value = some level) (rest : List String) :
    readWords .vacant (("--log-level=" ++ value) :: rest) =
      readWords ⟨some level, .nothing⟩ rest := by
  have named : Slot.name .vacant levelReading (some value) = .ok ⟨some level, .nothing⟩ :=
    Slot.accept_of_read (levelReading_read read) .nothing
  have lead : GlobalLead.ofShape (.long "log-level" (some value)) = .level (some value) := rfl
  simp only [readWords, ofWord_attachedLevel, lead, named]

/-- Behind the opening of a command line the payload is read, protected. -/
theorem ofArguments_opened (program : String) {level? : Option Severity}
    {options : List String} (level : LevelOption level? options) {spelling : String}
    {subcommand : Subcommand} (named : Subcommand.ofName? spelling = some subcommand)
    (words : List String) :
    ofArguments (program :: (options ++ spelling :: words)) =
      (readSubcommand subcommand (protectPayload words)).map
        fun (action, payload) => ⟨level?, action, payload⟩ := by
  have protects := protectSeparator_of_some named words
  change readWords .vacant (protectSeparator (options ++ spelling :: words)) = _
  cases level with
  | absent =>
      rw [List.nil_append, protects]
      exact readWords_of_named (Slot.settle_vacant levelReading) named _
  | @separate value level read =>
      have settles : Slot.settle ⟨none, .holding value⟩ levelReading =
          .ok ⟨some level, .nothing⟩ :=
        Slot.accept_of_read (levelReading_read read) (.holding value)
      have unnamed : Subcommand.ofName? "--log-level" = none := by decide
      rw [List.cons_append, List.cons_append, List.nil_append, protectSeparator_of_none unnamed,
        protectSeparator_of_none (ofName?_eq_none_of_level read), protects, readWords_levelName,
        readWords_awaited (ofWord_eq_plain_of_level read)]
      exact readWords_of_named settles named _
  | @attached value level read =>
      have settles : Slot.settle ⟨some level, .nothing⟩ levelReading =
          .ok ⟨some level, .nothing⟩ := rfl
      have unnamed : Subcommand.ofName? ("--log-level=" ++ value) = none :=
        Subcommand.ofName?_eq_none (by simp [ofWord_attachedLevel])
      rw [List.cons_append, List.nil_append, protectSeparator_of_none unnamed, protects,
        readWords_attachedLevel read]
      exact readWords_of_named settles named _

end Invocation

/-- A separator before the payload is dropped. -/
theorem readPayload_separator (takesCodec : Bool) (codec : Slot Codec) (rest : List String) :
    readPayload takesCodec codec (separator :: rest) = concludePayload codec rest := rfl

/-- From the first word of the payload on all words are payload. -/
theorem readPayload_literal {takesCodec : Bool} {codec : Slot Codec} {word : String}
    (literal : PayloadLead.ofShape takesCodec (Shape.ofWord word) = .literal)
    (settled : codec.pending ≠ .awaiting) (rest : List String) :
    readPayload takesCodec codec (word :: rest) = concludePayload codec (word :: rest) := by
  rcases codec with ⟨settled?, _ | _ | value⟩
  · simp only [readPayload, literal]
  · exact absurd rfl settled
  · simp only [readPayload, literal]

/-- A value that can be read as a codec is taken for one where it is awaited. -/
theorem literal_of_codec {value : String} {codec : Codec}
    (read : codecReading.read value = .ok codec) :
    PayloadLead.ofShape true (Shape.ofWord value) = .literal := by
  simp only [codecReading] at read
  split at read <;> first | rfl | simp at read

/-- Behind an option for a codec the reader goes on with that codec. -/
theorem CodecOption.reads {codec? : Option Codec} {options : List String}
    (option : CodecOption codec? options) :
    ∃ slot : Slot Codec, slot.pending ≠ .awaiting ∧
      (∀ words, readPayload true .vacant (options ++ words) = readPayload true slot words) ∧
      ∀ words, concludePayload slot words = .ok (codec?, words) := by
  cases option with
  | absent => exact ⟨.vacant, by decide, fun words => rfl, fun words => rfl⟩
  | @separate value codec read =>
      refine ⟨⟨none, .holding value⟩, nofun, ?_, ?_⟩
      · intro words
        have named : readPayload true .vacant ("--codec" :: value :: words) =
            readPayload true ⟨none, .awaiting⟩ (value :: words) := rfl
        rw [List.cons_append, List.cons_append, List.nil_append, named]
        simp only [readPayload, literal_of_codec read, Slot.hold]
      · intro words
        have settles : Slot.settle ⟨none, .holding value⟩ codecReading =
            .ok ⟨some codec, .nothing⟩ := Slot.accept_of_read read (.holding value)
        simp only [concludePayload, settles]
  | @attached value codec read =>
      refine ⟨⟨some codec, .nothing⟩, nofun, ?_, fun words => rfl⟩
      intro words
      have named : Slot.name .vacant codecReading (some value) = .ok ⟨some codec, .nothing⟩ :=
        Slot.accept_of_read read .nothing
      have lead : PayloadLead.ofShape true (.long "codec" (some value)) =
          .codec (some value) := rfl
      rw [List.cons_append, List.nil_append]
      simp only [readPayload, ofWord_attachedCodec, lead, named]

end Brainfuck.CommandLine
