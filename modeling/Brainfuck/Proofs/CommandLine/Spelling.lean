import Brainfuck.CommandLine.Invocation
import Mathlib.Data.List.TakeWhile

/-!
# The spelling of words

The words of each form are those of one spelling: `Shape.spelled_iff`. What a word
behind a subcommand is taken for can therefore be told from its letters. The
requests for help are the words that `AsksForHelp` lists, whether or not there is a
codec to choose; the others are payload where there is none.
-/

namespace Brainfuck.CommandLine

namespace Shape

/-- How the words of a form are spelled. -/
inductive Spelled : Shape -> List Char -> Prop where
  | separator : Spelled .separator ['-', '-']
  | named {name : List Char} (nonempty : name ≠ []) (unbroken : '=' ∉ name) :
      Spelled (.long (String.ofList name) none) ('-' :: '-' :: name)
  | attached {name : List Char} (unbroken : '=' ∉ name) (value : List Char) :
      Spelled (.long (String.ofList name) (some (String.ofList value)))
        ('-' :: '-' :: (name ++ '=' :: value))
  | short {letter : Char} (others : List Char) (unhyphened : letter ≠ '-') :
      Spelled (.short letter others) ('-' :: letter :: others)
  | plain {word : List Char} (unmarked : ∀ letter others, word ≠ '-' :: letter :: others) :
      Spelled .plain word

/-- No letter of a name ends it. -/
theorem passes_of_unbroken {name : List Char} (unbroken : '=' ∉ name) :
    ∀ letter ∈ name, decide (letter ≠ '=') = true := by
  intro letter inside
  exact decide_eq_true fun equals => unbroken (equals ▸ inside)

/-- A name without an equals sign is read as a whole. -/
theorem afterHyphens_named {name : List Char} (nonempty : name ≠ []) (unbroken : '=' ∉ name) :
    afterHyphens name = .long (String.ofList name) none := by
  have taken := List.takeWhile_eq_self_iff.mpr (passes_of_unbroken unbroken)
  have dropped := List.dropWhile_eq_nil_iff.mpr (passes_of_unbroken unbroken)
  obtain ⟨first, others, rfl⟩ := List.exists_cons_of_ne_nil nonempty
  simp only [afterHyphens, taken, dropped]

/-- A name is read up to the first equals sign. -/
theorem afterHyphens_attached {name : List Char} (unbroken : '=' ∉ name) (value : List Char) :
    afterHyphens (name ++ '=' :: value) =
      .long (String.ofList name) (some (String.ofList value)) := by
  have taken : (name ++ '=' :: value).takeWhile (· ≠ '=') = name := by
    rw [List.takeWhile_append_of_pos (passes_of_unbroken unbroken),
      List.takeWhile_cons_of_neg (by simp), List.append_nil]
  have dropped : (name ++ '=' :: value).dropWhile (· ≠ '=') = '=' :: value := by
    rw [List.dropWhile_append_of_pos (passes_of_unbroken unbroken),
      List.dropWhile_cons_of_neg (by simp)]
  obtain ⟨first, others, equals⟩ : ∃ first others, name ++ '=' :: value = first :: others :=
    List.exists_cons_of_ne_nil (by simp)
  rw [equals] at taken dropped ⊢
  simp only [afterHyphens, taken, dropped]

/-- A word has the form in which it is spelled. -/
theorem Spelled.ofChars_eq {shape : Shape} {word : List Char} (spelled : Spelled shape word) :
    ofChars word = shape := by
  cases spelled with
  | separator => rfl
  | named nonempty unbroken => exact afterHyphens_named nonempty unbroken
  | attached unbroken value => exact afterHyphens_attached unbroken value
  | short others unhyphened => exact ofChars.eq_2 _ others unhyphened
  | plain unmarked => exact ofChars.eq_3 word (fun text => unmarked '-' text) unmarked

/-- Every word is spelled in some form. -/
theorem exists_spelled (word : List Char) : ∃ shape, Spelled shape word := by
  by_cases marked : ∃ letter others, word = '-' :: letter :: others
  · obtain ⟨letter, others, rfl⟩ := marked
    by_cases hyphen : letter = '-'
    · subst hyphen
      by_cases broken : '=' ∈ others
      · obtain ⟨name, value, rfl, unbroken⟩ := List.eq_append_cons_of_mem broken
        exact ⟨_, .attached unbroken value⟩
      · cases others with
        | nil => exact ⟨_, .separator⟩
        | cons first name => exact ⟨_, .named (List.cons_ne_nil first name) broken⟩
    · exact ⟨_, .short others hyphen⟩
  · exact ⟨_, .plain fun letter others equals => marked ⟨letter, others, equals⟩⟩

/-- A word has exactly the form in which it is spelled. -/
theorem spelled_iff {shape : Shape} {word : String} :
    Spelled shape word.toList ↔ ofWord word = shape := by
  constructor
  · exact Spelled.ofChars_eq
  · rintro rfl
    obtain ⟨shape, spelled⟩ := exists_spelled word.toList
    rwa [ofWord, spelled.ofChars_eq]

/-- The letters of the words of a form, if it leaves none open. -/
def letters? : Shape -> Option String
  | .separator => some CommandLine.separator
  | .long name none => some ("--" ++ name)
  | .long name (some value) => some ("--" ++ name ++ "=" ++ value)
  | .short letter others => some (String.ofList ('-' :: letter :: others))
  | .plain => none

/-- A word of a form with known letters consists of these. -/
theorem eq_of_letters? {word letters : String} (known : (ofWord word).letters? = some letters) :
    word = letters := by
  have spelled : Spelled (ofWord word) word.toList := spelled_iff.mpr rfl
  rw [← String.toList_inj]
  generalize ofWord word = shape at known spelled
  generalize word.toList = spelling at spelled
  cases spelled with
  | separator | named | attached | short =>
      obtain rfl := Option.some.inj known
      simp [CommandLine.separator]
  | plain => simp [letters?] at known

/-- A word with a value attached to a long name has that form. -/
theorem ofWord_attached {name : String} (unbroken : '=' ∉ name.toList) (value : String) :
    ofWord ("--" ++ name ++ "=" ++ value) = .long name (some value) := by
  refine spelled_iff.mp ?_
  have spelled := Spelled.attached unbroken value.toList
  simpa using spelled

end Shape

/-- The word asks for help: by the long name, to which a value may be attached, or
by a hyphen and no other letters than that of help. -/
inductive AsksForHelp : String -> Prop where
  | named : AsksForHelp "--help"
  | attached (value : String) : AsksForHelp ("--help=" ++ value)
  | letters (count : Nat) : AsksForHelp (String.ofList ('-' :: List.replicate (count + 1) 'h'))

namespace PayloadLead

variable {takesCodec : Bool}

/-- Whether a lead is a request for help. -/
def requestsHelp : PayloadLead -> Bool
  | .help => true
  | .helpWithValue _ => true
  | _ => false

/-- Help is requested by its long name, with or without a value, and by a cluster of
its letter. -/
theorem requestsHelp_ofShape_iff {shape : Shape} :
    (ofShape takesCodec shape).requestsHelp = true ↔
      (∃ value?, shape = .long "help" value?) ∨
        ∃ count, shape = .short 'h' (List.replicate count 'h') := by
  cases shape with
  | separator | plain => simp [ofShape, requestsHelp]
  | long name value? =>
      by_cases help : name = "help"
      · cases value? <;> simp [ofShape, requestsHelp, help]
      · simp only [ofShape, if_neg help]
        split <;> simp [requestsHelp, help]
  | short letter others =>
      by_cases same : letter = 'h' ∧ others.all (· = 'h') = true
      · have others_eq : others = List.replicate others.length 'h' :=
          List.eq_replicate_of_mem (by simpa using same.2)
        rw [ofShape, if_pos same]
        exact iff_of_true rfl (.inr ⟨others.length, by rw [same.1, ← others_eq]⟩)
      · simp only [ofShape, if_neg same]
        refine iff_of_false (by simp [requestsHelp]) ?_
        rintro (⟨value?, equal⟩ | ⟨count, equal⟩)
        · simp at equal
        · obtain ⟨rfl, rfl⟩ := Shape.short.inj equal
          simp at same

/-- The words that are taken for requests for help are those that ask for it. -/
theorem requestsHelp_iff {word : String} :
    (ofShape takesCodec (Shape.ofWord word)).requestsHelp = true ↔ AsksForHelp word := by
  rw [requestsHelp_ofShape_iff]
  constructor
  · rintro (⟨_ | value, shape⟩ | ⟨count, shape⟩)
    · obtain rfl := Shape.eq_of_letters? (congrArg Shape.letters? shape)
      exact .named
    · obtain rfl := Shape.eq_of_letters? (congrArg Shape.letters? shape)
      exact .attached value
    · obtain rfl := Shape.eq_of_letters? (congrArg Shape.letters? shape)
      exact .letters count
  · intro asks
    cases asks with
    | named => exact .inl ⟨none, rfl⟩
    | attached value =>
        have opened : "--help=" = "--" ++ "help" ++ "=" := by decide
        exact .inl ⟨some value, by rw [opened, Shape.ofWord_attached (by decide) value]⟩
    | letters count =>
        refine .inr ⟨count, ?_⟩
        rw [Shape.ofWord, String.toList_ofList, List.replicate_succ]
        exact (Shape.Spelled.short _ (by decide)).ofChars_eq

end PayloadLead

/-- Whether a word asks for help is decided by what it is taken for. -/
instance (word : String) : Decidable (AsksForHelp word) :=
  decidable_of_iff ((PayloadLead.ofShape false (Shape.ofWord word)).requestsHelp = true)
    PayloadLead.requestsHelp_iff

example : ¬ AsksForHelp "-hx" := by decide

end Brainfuck.CommandLine
