import Brainfuck.Proofs.CommandLine.CodecChoice

/-!
# Accepted command lines

Two readers go over a command line. The scan that protects the separator takes the first
word that names a subcommand, wherever it stands, and passes over all that looks like
codec options behind it. The reader of options decides for itself which words are values
and where the payload begins. They may see different things in the same words, but then
the command line is refused: an option that was given twice, or a value that cannot be
read, leaves a slot `Hopeless`, and no words to come are accepted with such a slot. What
is accepted was written as both of them see it, which is what
`Invocation.readFrom_of_ofArguments` says.
-/

namespace Brainfuck.CommandLine

namespace Slot

variable {α : Type} {slot settled : Slot α} {reading : Reading α}

/-- What is pending is a mistake, and so it is with any value that may be awaited. -/
structure Hopeless (slot : Slot α) (reading : Reading α) : Prop where
  refused : ∃ refusal, slot.settle reading = .error refusal
  held : slot.pending = .awaiting -> ∀ value, ∃ refusal,
    (slot.hold value).settle reading = .error refusal

/-- A value does not help. -/
theorem Hopeless.hold (hopeless : slot.Hopeless reading) (awaiting : slot.pending = .awaiting)
    (value : String) : (slot.hold value).Hopeless reading where
  refused := hopeless.held awaiting value
  held := nofun

/-- An option that has a value is not given another one. -/
theorem hopeless_of_occupied {meant : α} {pending : Pending} (repeated : pending ≠ .nothing) :
    Hopeless ⟨some meant, pending⟩ reading := by
  cases pending with
  | nothing => exact absurd rfl repeated
  | awaiting => exact ⟨⟨_, rfl⟩, fun _ _ => ⟨_, rfl⟩⟩
  | holding value => exact ⟨⟨_, rfl⟩, nofun⟩

/-- A value that cannot be read stays a mistake. -/
theorem hopeless_of_unreadable {value : String} {refusal : Refusal}
    (unreadable : reading.read value = .error refusal) :
    Hopeless ⟨none, .holding value⟩ reading :=
  ⟨⟨refusal, by simp only [settle, accept, unreadable]⟩, nofun⟩

/-- A refusal accepts nothing. -/
theorem refuse_ne_ok {β : Type} (slot : Slot α) (reading : Reading α) (refusal : Refusal)
    (result : β) : slot.refuse reading refusal ≠ .ok result := by
  unfold refuse
  split <;> exact nofun

/-- An option that is named although it has a value can only be refused. -/
theorem hopeless_of_name {meant : α} (settles : slot.settle reading = .ok settled)
    (occupied : settled.settled? = some meant) {attached? : Option String} {named : Slot α}
    (names : slot.name reading attached? = .ok named) : named.Hopeless reading := by
  cases attached? with
  | none =>
      simp only [name, settles, occupied, Except.ok.injEq] at names
      obtain rfl := names
      exact hopeless_of_occupied nofun
  | some value => simp [name, settles, accept, occupied] at names

/-- What has been settled awaits no value. -/
theorem pending_ne_awaiting (settles : slot.settle reading = .ok settled) :
    slot.pending ≠ .awaiting := by
  intro awaiting
  simp [settle, awaiting] at settles

/-- A value that is held back in a vacant slot can be read, if there is any hope. -/
theorem exists_read_of_hope {value : String} (hope : ¬ Hopeless ⟨none, .holding value⟩ reading) :
    ∃ meant, reading.read value = .ok meant := by
  cases read : reading.read value with
  | error refusal => exact absurd (hopeless_of_unreadable read) hope
  | ok meant => exact ⟨meant, rfl⟩

end Slot

section Payload

variable {codec settled : Slot Codec} {words payload : List String} {codec? : Option Codec}
  {result : Option Codec × List String}

/-- Nothing is concluded from what is a mistake. -/
theorem concludePayload_ne_ok (hopeless : codec.Hopeless codecReading) (words : List String)
    (result : Option Codec × List String) : concludePayload codec words ≠ .ok result := by
  obtain ⟨refusal, refused⟩ := hopeless.refused
  simp [concludePayload, refused]

/-- No words are accepted once there is no hope for the codec. -/
theorem readPayload_ne_ok (hopeless : codec.Hopeless codecReading) (takesCodec : Bool)
    (words : List String) (result : Option Codec × List String) :
    readPayload takesCodec codec words ≠ .ok result := by
  induction words generalizing codec with
  | nil => exact concludePayload_ne_ok hopeless [] result
  | cons word rest inductionHypothesis =>
      obtain ⟨refusal, refused⟩ := hopeless.refused
      cases lead : PayloadLead.ofShape takesCodec (Shape.ofWord word) with
      | help => simp [readPayload, lead, Slot.refuse_ne_ok]
      | helpWithValue value => simp [readPayload, lead]
      | codec attached? => simp [readPayload, lead, Slot.name, refused]
      | separator => simp [readPayload, lead, concludePayload_ne_ok hopeless]
      | literal =>
          by_cases awaiting : codec.pending = .awaiting
          · simp only [readPayload, lead, awaiting]
            exact inductionHypothesis (hopeless.hold awaiting word)
          · rw [readPayload_literal lead awaiting]
            exact concludePayload_ne_ok hopeless _ result

/-- A request for help at the head of the words is answered, and nothing else is read. -/
theorem readPayload_ne_ok_of_asksForHelp {word : String} (asks : AsksForHelp word)
    (codec : Slot Codec) (rest : List String) (result : Option Codec × List String) :
    readPayload true codec (word :: rest) ≠ .ok result := by
  have requests : (PayloadLead.ofShape true (Shape.ofWord word)).requestsHelp = true :=
    PayloadLead.requestsHelp_iff.mpr asks
  cases lead : PayloadLead.ofShape true (Shape.ofWord word) with
  | help => simp [readPayload, lead, Slot.refuse_ne_ok]
  | helpWithValue value => simp [readPayload, lead]
  | codec | separator | literal => simp [lead, PayloadLead.requestsHelp] at requests

/-- Protection leaves the first word in its place. -/
theorem exists_protectPayload_cons (word : String) (rest : List String) :
    ∃ others, protectPayload (word :: rest) = word :: others := by
  obtain kept | ⟨options, behind, looks, split⟩ := protectPayload_cases (word :: rest)
  · exact ⟨rest, kept⟩
  · rw [split, protectPayload_append looks, protectPayload_separator]
    cases options with
    | nil => exact ⟨_, by rw [(List.cons.inj split).1, List.nil_append]⟩
    | cons first others => exact ⟨_, by rw [(List.cons.inj split).1, List.cons_append]⟩

/-- Words that are accepted and do not begin with the name of the codec may stand at the
head of a payload. -/
theorem opens_of_readPayload
    (reads : readPayload true codec (protectPayload words) = .ok result)
    (unchosen : ∀ first ∈ words.head?, ¬ NamesCodec first) :
    ∀ first ∈ words.head?, OpensPayload first := by
  intro first heads
  refine ⟨?_, unchosen first heads⟩
  intro asks
  obtain ⟨rest, rfl⟩ := List.head?_eq_some_iff.mp heads
  obtain ⟨others, protects⟩ := exists_protectPayload_cons first rest
  rw [protects] at reads
  exact readPayload_ne_ok_of_asksForHelp asks codec others result reads

/-- A word where a value is awaited is taken for that value, if it is accepted. -/
theorem readPayload_awaited {value : String} {rest : List String}
    (reads : readPayload true ⟨none, .awaiting⟩ (value :: rest) = .ok result) :
    readPayload true ⟨none, .holding value⟩ rest = .ok result := by
  cases lead : PayloadLead.ofShape true (Shape.ofWord value) with
  | help => simp [readPayload, lead, Slot.refuse_ne_ok] at reads
  | helpWithValue attached => simp [readPayload, lead] at reads
  | codec attached? => simp [readPayload, lead, Slot.name, Slot.settle] at reads
  | separator => simp [readPayload, lead, concludePayload, Slot.settle] at reads
  | literal => simpa only [readPayload, lead, Slot.hold] using reads

/-- Behind one option for the codec, all words are payload. -/
theorem eq_of_readPayload_settled {chosen : Codec}
    (settles : codec.settle codecReading = .ok settled) (occupied : settled.settled? = some chosen)
    (reads : readPayload true codec (protectPayload words) = .ok (codec?, payload)) :
    codec? = some chosen ∧ payload = words ∧ ∀ first ∈ payload.head?, OpensPayload first := by
  have unchosen : ∀ first ∈ words.head?, ¬ NamesCodec first := by
    intro first heads names
    obtain ⟨rest, rfl⟩ := List.head?_eq_some_iff.mp heads
    obtain ⟨others, protects⟩ := exists_protectPayload_cons first rest
    have chooses := PayloadLead.choosesCodec_iff.mpr names
    rw [protects] at reads
    cases lead : PayloadLead.ofShape true (Shape.ofWord first) with
    | codec attached? =>
        cases named : codec.name codecReading attached? with
        | error refusal => simp [readPayload, lead, named] at reads
        | ok next =>
            simp only [readPayload, lead, named] at reads
            exact readPayload_ne_ok (Slot.hopeless_of_name settles occupied named) true _ _ reads
    | help | helpWithValue | separator | literal => simp [lead, PayloadLead.choosesCodec] at chooses
  have opens := opens_of_readPayload reads unchosen
  rw [readPayload_opened (Slot.pending_ne_awaiting settles) opens] at reads
  simp only [concludePayload, settles, occupied, Except.ok.injEq, Prod.mk.injEq] at reads
  obtain ⟨rfl, rfl⟩ := reads
  exact ⟨rfl, rfl, opens⟩

/-- An option for the codec with its value in a word of its own, if it is accepted. -/
theorem exists_codec_of_separate {first : List String}
    (reads : readPayload true .vacant (protectPayload ("--codec" :: first)) =
      .ok (codec?, payload)) :
    ∃ value chosen, codecReading.read value = .ok chosen ∧ codec? = some chosen ∧
      first = value :: payload ∧ ∀ head ∈ payload.head?, OpensPayload head := by
  cases first with
  | nil =>
      have missing : readPayload true .vacant (protectPayload ["--codec"]) =
          .error (.valueMissing .codec) := rfl
      simp [missing] at reads
  | cons value behind =>
      have protects := protectPayload_append (.separate value .absent) behind
      simp only [List.cons_append, List.nil_append] at protects
      rw [protects] at reads
      have held := readPayload_awaited reads
      have hope : ¬ Slot.Hopeless ⟨none, .holding value⟩ codecReading :=
        fun hopeless => readPayload_ne_ok hopeless true _ _ held
      obtain ⟨chosen, read⟩ := Slot.exists_read_of_hope hope
      have settles : Slot.settle ⟨none, .holding value⟩ codecReading =
          .ok ⟨some chosen, .nothing⟩ := Slot.accept_of_read read (.holding value)
      obtain ⟨same, rfl, opens⟩ := eq_of_readPayload_settled settles rfl held
      exact ⟨value, chosen, read, same, rfl, opens⟩

/-- An option for the codec with its value attached, if it is accepted. -/
theorem exists_codec_of_attached {value : String}
    (reads : readPayload true .vacant (protectPayload (("--codec=" ++ value) :: words)) =
      .ok (codec?, payload)) :
    ∃ chosen, codecReading.read value = .ok chosen ∧ codec? = some chosen ∧ words = payload ∧
      ∀ head ∈ payload.head?, OpensPayload head := by
  have protects := protectPayload_append (.attached value .absent) words
  simp only [List.cons_append, List.nil_append] at protects
  have lead : PayloadLead.ofShape true (.long "codec" (some value)) = .codec (some value) := rfl
  have named : Slot.name .vacant codecReading (some value) =
      Slot.accept .vacant codecReading value := rfl
  simp only [protects, readPayload, ofWord_attachedCodec, lead, named] at reads
  cases read : codecReading.read value with
  | error refusal => simp [Slot.accept, Slot.vacant, read] at reads
  | ok chosen =>
      simp only [Slot.vacant, Slot.accept_of_read read] at reads
      obtain ⟨same, equal, opens⟩ := eq_of_readPayload_settled rfl rfl reads
      exact ⟨chosen, rfl, same, equal.symm, opens⟩

/-- The words behind the name of a decoding are accepted exactly if they are at most one
option for a codec that there is and then a payload, and this payload is what is read. -/
theorem readPayload_eq_ok_iff :
    readPayload true .vacant (protectPayload words) = .ok (codec?, payload) ↔
      ∃ chosen, CodecOption codec? chosen ∧ words = chosen ++ payload ∧
        ∀ first ∈ payload.head?, OpensPayload first := by
  constructor
  · intro reads
    by_cases chooses : ∃ first ∈ words.head?, NamesCodec first
    · obtain ⟨first, heads, names⟩ := chooses
      obtain ⟨rest, rfl⟩ := List.head?_eq_some_iff.mp heads
      cases names with
      | alone =>
          obtain ⟨value, chosen, read, rfl, rfl, opens⟩ := exists_codec_of_separate reads
          exact ⟨["--codec", value], .separate read, rfl, opens⟩
      | attached value =>
          obtain ⟨chosen, read, rfl, rfl, opens⟩ := exists_codec_of_attached reads
          exact ⟨["--codec=" ++ value], .attached read, rfl, opens⟩
    · have unchosen : ∀ first ∈ words.head?, ¬ NamesCodec first :=
        fun first heads names => chooses ⟨first, heads, names⟩
      have opens := opens_of_readPayload reads unchosen
      rw [readPayload_opened (by decide) opens] at reads
      obtain ⟨rfl, rfl⟩ := Prod.mk.inj (Except.ok.inj reads)
      exact ⟨[], .absent, rfl, opens⟩
  · rintro ⟨chosen, option, rfl, opens⟩
    exact readPayload_behind_codec option opens

end Payload

/-- The option of the level is known by its long name. -/
theorem GlobalLead.ofShape_eq_level_iff {shape : Shape} {attached? : Option String} :
    ofShape shape = .level attached? ↔ shape = .long "log-level" attached? := by
  rcases shape with _ | ⟨name, _ | value⟩ | _ | _ <;> grind [ofShape, Setting.name]

/-- The words of an option for the level do not name a subcommand. -/
theorem LevelOption.ofName?_eq_none {level? : Option Severity} {options : List String}
    (option : LevelOption level? options) :
    ∀ word ∈ options, Subcommand.ofName? word = none := by
  cases option with
  | absent => simp
  | separate read =>
      have named : Subcommand.ofName? "--log-level" = none := by decide
      simp [named, ofName?_eq_none_of_level read]
  | @attached value _ read =>
      have marked : Shape.ofWord ("--log-level=" ++ value) ≠ .plain := by
        simp [ofWord_attachedLevel]
      simp [Subcommand.ofName?_eq_none marked]

namespace Invocation

variable {level settled : Slot Severity} {word : String} {words rest : List String}
  {invocation : Invocation}

/-- No subcommand is accepted once there is no hope for the level. -/
theorem ofSubcommand_ne_ok (hopeless : level.Hopeless levelReading) (subcommand : Subcommand)
    (words : List String) (invocation : Invocation) :
    ofSubcommand level subcommand words ≠ .ok invocation := by
  obtain ⟨refusal, refused⟩ := hopeless.refused
  unfold ofSubcommand
  split
  · exact nofun
  · simp [refused]

/-- A plain word where no value is awaited names a subcommand, if it is accepted. -/
theorem readWords_plain (plain : GlobalLead.ofShape (Shape.ofWord word) = .plain)
    (unawaited : level.pending ≠ .awaiting)
    (reads : readWords level (word :: rest) = .ok invocation) :
    ∃ subcommand, Subcommand.ofName? word = some subcommand ∧
      ofSubcommand level subcommand rest = .ok invocation := by
  cases named : Subcommand.ofName? word with
  | some subcommand =>
      refine ⟨subcommand, rfl, ?_⟩
      rcases level with ⟨settled?, _ | _ | value⟩
      · simpa only [readWords, plain, named] using reads
      · exact absurd rfl unawaited
      · simpa only [readWords, plain, named] using reads
  | none =>
      exfalso
      rcases level with ⟨settled?, _ | _ | value⟩
      · simp only [readWords, plain, named] at reads
        split at reads <;> simp at reads
      · exact unawaited rfl
      · simp only [readWords, plain, named] at reads
        split at reads <;> simp at reads

/-- No words are accepted once there is no hope for the level. -/
theorem readWords_ne_ok (hopeless : level.Hopeless levelReading) (words : List String)
    (invocation : Invocation) : readWords level words ≠ .ok invocation := by
  induction words generalizing level with
  | nil => simp [readWords]
  | cons word rest inductionHypothesis =>
      obtain ⟨refusal, refused⟩ := hopeless.refused
      cases lead : GlobalLead.ofShape (Shape.ofWord word) with
      | help | version => simp [readWords, lead, Slot.refuse_ne_ok]
      | flagWithValue | unexpected => simp [readWords, lead]
      | level attached? => simp [readWords, lead, Slot.name, refused]
      | separator => cases rest <;> simp [readWords, lead]
      | plain =>
          by_cases awaiting : level.pending = .awaiting
          · simp only [readWords, lead, awaiting]
            exact inductionHypothesis (hopeless.hold awaiting word)
          · intro reads
            obtain ⟨subcommand, -, accepted⟩ := readWords_plain lead awaiting reads
            exact ofSubcommand_ne_ok hopeless subcommand rest invocation accepted

/-- A word that is not the option of the level names a subcommand where no value is
awaited, if it is accepted. -/
theorem exists_subcommand_of_readWords (unawaited : level.pending ≠ .awaiting)
    (unlevelled : ∀ attached?, GlobalLead.ofShape (Shape.ofWord word) ≠ .level attached?)
    (reads : readWords level (word :: rest) = .ok invocation) :
    ∃ subcommand, Subcommand.ofName? word = some subcommand := by
  cases lead : GlobalLead.ofShape (Shape.ofWord word) with
  | help | version => simp [readWords, lead, Slot.refuse_ne_ok] at reads
  | flagWithValue | unexpected => simp [readWords, lead] at reads
  | level attached? => exact absurd lead (unlevelled attached?)
  | separator => cases rest <;> simp [readWords, lead] at reads
  | plain =>
      obtain ⟨subcommand, named, -⟩ := readWords_plain lead unawaited reads
      exact ⟨subcommand, named⟩

/-- Protection leaves the first word in its place. -/
theorem exists_protectSeparator_cons (word : String) (rest : List String) :
    ∃ others, protectSeparator (word :: rest) = word :: others := by
  cases named : Subcommand.ofName? word with
  | none => exact ⟨_, protectSeparator_of_none named rest⟩
  | some subcommand => exact ⟨_, protectSeparator_of_some named rest⟩

/-- Behind one option for the level, a subcommand follows. -/
theorem exists_subcommand_of_settled {chosen : Severity}
    (settles : level.settle levelReading = .ok settled) (occupied : settled.settled? = some chosen)
    (reads : readWords level (protectSeparator words) = .ok invocation) :
    ∃ spelling subcommand behind, words = spelling :: behind ∧
      Subcommand.ofName? spelling = some subcommand := by
  cases words with
  | nil => simp [protectSeparator, readWords] at reads
  | cons word rest =>
      obtain ⟨others, protects⟩ := exists_protectSeparator_cons word rest
      rw [protects] at reads
      have unlevelled : ∀ attached?,
          GlobalLead.ofShape (Shape.ofWord word) ≠ .level attached? := by
        intro attached? lead
        cases named : level.name levelReading attached? with
        | error refusal => simp [readWords, lead, named] at reads
        | ok next =>
            simp only [readWords, lead, named] at reads
            exact readWords_ne_ok (Slot.hopeless_of_name settles occupied named) _ _ reads
      obtain ⟨subcommand, named⟩ :=
        exists_subcommand_of_readWords (Slot.pending_ne_awaiting settles) unlevelled reads
      exact ⟨word, subcommand, rest, rfl, named⟩

/-- A word where a value is awaited is taken for that value, if it is accepted. -/
theorem readWords_of_awaited {value : String}
    (reads : readWords ⟨none, .awaiting⟩ (value :: rest) = .ok invocation) :
    readWords ⟨none, .holding value⟩ rest = .ok invocation := by
  cases lead : GlobalLead.ofShape (Shape.ofWord value) with
  | help | version => simp [readWords, lead, Slot.refuse_ne_ok] at reads
  | flagWithValue | unexpected => simp [readWords, lead] at reads
  | level attached? => simp [readWords, lead, Slot.name, Slot.settle] at reads
  | separator => cases rest <;> simp [readWords, lead] at reads
  | plain => simpa only [readWords, lead, Slot.hold] using reads

/-- What can be read as a level is the name of one. -/
theorem ofName?_of_levelReading {value : String} {level : Severity}
    (read : levelReading.read value = .ok level) : Severity.ofName? value = some level := by
  simp only [levelReading] at read
  split at read
  · rename_i found named
    rw [named, Except.ok.inj read]
  · simp at read

/-- An option for the level with its value in a word of its own, if it is accepted. -/
theorem exists_level_of_separate
    (reads : readWords .vacant (protectSeparator ("--log-level" :: rest)) = .ok invocation) :
    ∃ value chosen spelling subcommand behind, Severity.ofName? value = some chosen ∧
      Subcommand.ofName? spelling = some subcommand ∧ rest = value :: spelling :: behind := by
  have unnamed : Subcommand.ofName? "--log-level" = none := by decide
  rw [protectSeparator_of_none unnamed, readWords_levelName] at reads
  cases rest with
  | nil => simp [protectSeparator, readWords] at reads
  | cons value onward =>
      obtain ⟨others, protects⟩ := exists_protectSeparator_cons value onward
      have held := readWords_of_awaited (protects ▸ reads)
      have hope : ¬ Slot.Hopeless ⟨none, .holding value⟩ levelReading :=
        fun hopeless => readWords_ne_ok hopeless _ _ held
      obtain ⟨chosen, read⟩ := Slot.exists_read_of_hope hope
      have settles : Slot.settle ⟨none, .holding value⟩ levelReading =
          .ok ⟨some chosen, .nothing⟩ := Slot.accept_of_read read (.holding value)
      -- A value that can be read is no name, so the scan goes on as the reader does.
      have valued := ofName?_of_levelReading read
      rw [protectSeparator_of_none (ofName?_eq_none_of_level valued)] at protects
      rw [← (List.cons.inj protects).2] at held
      obtain ⟨spelling, subcommand, behind, rfl, named⟩ :=
        exists_subcommand_of_settled settles rfl held
      exact ⟨value, chosen, spelling, subcommand, behind, valued, named, rfl⟩

/-- An option for the level with its value attached, if it is accepted. -/
theorem exists_level_of_attached {value : String}
    (reads : readWords .vacant (protectSeparator (("--log-level=" ++ value) :: rest)) =
      .ok invocation) :
    ∃ chosen spelling subcommand behind, Severity.ofName? value = some chosen ∧
      Subcommand.ofName? spelling = some subcommand ∧ rest = spelling :: behind := by
  have shape := ofWord_attachedLevel value
  have unnamed : Subcommand.ofName? ("--log-level=" ++ value) = none :=
    Subcommand.ofName?_eq_none (by simp [shape])
  have lead : GlobalLead.ofShape (.long "log-level" (some value)) = .level (some value) := rfl
  have named : Slot.name .vacant levelReading (some value) =
      Slot.accept .vacant levelReading value := rfl
  rw [protectSeparator_of_none unnamed] at reads
  simp only [readWords, shape, lead, named] at reads
  cases read : levelReading.read value with
  | error refusal => simp [Slot.accept, Slot.vacant, read] at reads
  | ok chosen =>
      simp only [Slot.vacant, Slot.accept_of_read read] at reads
      obtain ⟨spelling, subcommand, behind, rfl, named⟩ :=
        exists_subcommand_of_settled rfl rfl reads
      exact ⟨chosen, spelling, subcommand, behind, ofName?_of_levelReading read, named, rfl⟩

/-- An accepted command line opens with at most one option for a level that there is, and
a subcommand behind it. -/
theorem exists_opening_of_readWords
    (reads : readWords .vacant (protectSeparator words) = .ok invocation) :
    ∃ level? options spelling subcommand behind, LevelOption level? options ∧
      Subcommand.ofName? spelling = some subcommand ∧ words = options ++ spelling :: behind := by
  cases words with
  | nil => simp [protectSeparator, readWords] at reads
  | cons word rest =>
      by_cases levelled : ∃ attached?, GlobalLead.ofShape (Shape.ofWord word) = .level attached?
      · obtain ⟨_ | value, lead⟩ := levelled
        · have shape := GlobalLead.ofShape_eq_level_iff.mp lead
          obtain rfl := Shape.eq_of_letters? (congrArg Shape.letters? shape)
          obtain ⟨value, chosen, spelling, subcommand, behind, valued, named, rfl⟩ :=
            exists_level_of_separate reads
          exact ⟨_, _, spelling, subcommand, behind, .separate valued, named, rfl⟩
        · have shape := GlobalLead.ofShape_eq_level_iff.mp lead
          obtain rfl := Shape.eq_of_letters? (congrArg Shape.letters? shape)
          obtain ⟨chosen, spelling, subcommand, behind, valued, named, rfl⟩ :=
            exists_level_of_attached reads
          exact ⟨_, _, spelling, subcommand, behind, .attached valued, named, rfl⟩
      · obtain ⟨others, protects⟩ := exists_protectSeparator_cons word rest
        rw [protects] at reads
        obtain ⟨subcommand, named⟩ := exists_subcommand_of_readWords (by decide)
          (fun attached? lead => levelled ⟨attached?, lead⟩) reads
        exact ⟨none, [], word, subcommand, rest, .absent, named, rfl⟩

end Invocation

/-- The subcommand that asks for an action. -/
def Action.subcommand : Action -> Subcommand
  | .encode => .encode
  | .decode _ => .decode
  | .check => .check

/-- What a subcommand is accepted for: its action, and in a decoding the codec and the
payload that are read behind it. -/
theorem subcommand_of_readSubcommand {subcommand : Subcommand} {words payload : List String}
    {action : Action} (reads : readSubcommand subcommand words = .ok (action, payload)) :
    action.subcommand = subcommand ∧ ∀ codec, action = .decode codec ->
      ∃ codec?, readPayload true .vacant words = .ok (codec?, payload) ∧
        codec = codec?.getD .ascii := by
  cases subcommand with
  | encode | check =>
      cases plain : readPayload false .vacant words with
      | error refusal => simp [readSubcommand, plain, Except.map] at reads
      | ok result =>
          simp only [readSubcommand, plain, Except.map, Except.ok.injEq, Prod.mk.injEq] at reads
          obtain ⟨rfl, -⟩ := reads
          exact ⟨rfl, fun codec same => by cases same⟩
  | decode =>
      cases chosen : readPayload true .vacant words with
      | error refusal => simp [readSubcommand, chosen, Except.map] at reads
      | ok result =>
          simp only [readSubcommand, chosen, Except.map, Except.ok.injEq, Prod.mk.injEq] at reads
          obtain ⟨rfl, rfl⟩ := reads
          refine ⟨rfl, fun codec same => ⟨result.1, rfl, ?_⟩⟩
          exact (Action.decode.inj same).symm

/-- The scan passes over words that name no subcommand. -/
theorem protectSeparator_append {options : List String}
    (unnamed : ∀ word ∈ options, Subcommand.ofName? word = none) (rest : List String) :
    protectSeparator (options ++ rest) = options ++ protectSeparator rest := by
  induction options with
  | nil => rfl
  | cons word others inductionHypothesis =>
      obtain ⟨unnamedWord, unnamedOthers⟩ := List.forall_mem_cons.mp unnamed
      rw [List.cons_append, protectSeparator_of_none unnamedWord,
        inductionHypothesis unnamedOthers, List.cons_append]

/-- A word that no subcommand is found by is none of the names. -/
theorem Subcommand.not_mem_names {word : String} (unnamed : ofName? word = none) :
    word ∉ names := by
  have found : ∀ name ∈ names, ofName? name ≠ none := by decide
  exact fun member => found word member unnamed

namespace Invocation

/-- How the words behind the name of the program are written when they ask for an
invocation: options in front, the spelling of a subcommand, and the words behind it. In
front stands the option for the level and nothing else, so that the scan and the reader
find the same subcommand. Behind a decoding stand the option for its codec and the
payload, which is read as it is written. -/
structure ReadFrom (invocation : Invocation) (program : String) (options : List String)
    (spelling : String) (behind : List String) : Prop where
  level : LevelOption invocation.logLevel? options
  unnamed : ∀ word ∈ options, word ∉ Subcommand.names
  spelled : spelling ∈ Subcommand.names
  named : Subcommand.ofName? spelling = some invocation.action.subcommand
  scanned : protectArguments (program :: (options ++ spelling :: behind)) =
    program :: (options ++ spelling :: protectPayload behind)
  decoding : ∀ codec, invocation.action = .decode codec -> ∃ codec? chosen,
    CodecOption codec? chosen ∧ codec = codec?.getD .ascii ∧
      behind = chosen ++ invocation.words

/-- Whatever is written on a command line: if it is accepted, then the subcommand is the
first word behind the name of the program that names one, with at most one option for a
level that there is in front of it. If it is a decoding, the words behind it are at most
one option for a codec that there is, and then those that are read, unchanged. -/
theorem readFrom_of_ofArguments {arguments : List String} {invocation : Invocation}
    (accepted : ofArguments arguments = .ok invocation) :
    ∃ program options spelling behind, arguments = program :: (options ++ spelling :: behind) ∧
      invocation.ReadFrom program options spelling behind := by
  cases arguments with
  | nil => simp [ofArguments, protectArguments, readWords] at accepted
  | cons program words =>
      obtain ⟨level?, options, spelling, subcommand, behind, level, named, rfl⟩ :=
        exists_opening_of_readWords accepted
      have unnamed := level.ofName?_eq_none
      rw [ofArguments_opened program level named] at accepted
      cases reads : readSubcommand subcommand (protectPayload behind) with
      | error refusal => simp [reads, Except.map] at accepted
      | ok result =>
          obtain ⟨action, payload⟩ := result
          obtain rfl : ⟨level?, action, payload⟩ = invocation := by
            simpa [reads, Except.map] using accepted
          obtain ⟨rfl, decodes⟩ := subcommand_of_readSubcommand reads
          refine ⟨program, options, spelling, behind, rfl, level, ?_, ?_, named, ?_, ?_⟩
          · exact fun word member => Subcommand.not_mem_names (unnamed word member)
          · exact Subcommand.mem_names named
          · rw [protectArguments, protectSeparator_append unnamed, protectSeparator_of_some named]
          · intro codec decoding
            obtain ⟨codec?, payloadReads, chosen⟩ := decodes codec decoding
            obtain ⟨option, chooses, split, -⟩ := readPayload_eq_ok_iff.mp payloadReads
            exact ⟨codec?, option, chooses, chosen, split⟩

/-- A level and a codec are chosen, and the payload of the decoding repeats the names of
subcommands, the option of the codec and the separator. -/
theorem readFrom_of_ofArguments_repeating :
    ofArguments ["bfa", "--log-level=WARN", "d", "--codec", "utf8", "--", "e", "--codec", "--",
        "--"] =
      .ok ⟨some .warn, .decode .utf8, ["--", "e", "--codec", "--", "--"]⟩ ∧
    ∃ program options spelling behind,
      ["bfa", "--log-level=WARN", "d", "--codec", "utf8", "--", "e", "--codec", "--", "--"] =
        program :: (options ++ spelling :: behind) ∧
      ReadFrom ⟨some .warn, .decode .utf8, ["--", "e", "--codec", "--", "--"]⟩ program options
        spelling behind :=
  ⟨rfl, readFrom_of_ofArguments rfl⟩

end Invocation

end Brainfuck.CommandLine
