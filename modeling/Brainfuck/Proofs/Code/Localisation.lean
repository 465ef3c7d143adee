import Brainfuck.Proofs.Code.Partner

/-!
# Where the fault of a code is

A scan that has found no fault so far has read a code that leaves as many brackets open
as its depth says (`Opens`), and between these the code is balanced. So the closing
bracket at which it stops is the first one that closes more than is open, and all before
it is balanced; and if it comes to the end at a positive depth, some opening bracket has
no partner. That need not be the one that is reported, which is the last of the code:
`validate_localises` says when it is, and what the excerpt shows of it.
-/

namespace Brainfuck

/-- More brackets are closed than opened. -/
def Overcloses (code : List Char) : Prop :=
  code.count '[' < code.count ']'

instance (code : List Char) : Decidable (Overcloses code) :=
  inferInstanceAs (Decidable (code.count '[' < code.count ']'))

/-- A code that leaves `depth` brackets open, with balanced code behind each of them. -/
inductive Opens : Nat -> List Char -> Prop where
  | outside {code : List Char} (balanced : Balanced code) : Opens 0 code
  | inside {depth : Nat} {outer body : List Char} (opensOuter : Opens depth outer)
      (balancedBody : Balanced body) : Opens (depth + 1) (outer ++ '[' :: body)

/-- The front part of a code up to a character, and that character. -/
theorem take_through (front behind : List Char) (character : Char) :
    (front ++ character :: behind).take (front.length + 1) = front ++ [character] := by
  rw [List.take_length_add_append]
  rfl

namespace Balanced

variable {code : List Char}

/-- As many brackets are opened as closed. -/
theorem count_brackets (balanced : Balanced code) : code.count '[' = code.count ']' := by
  induction balanced with
  | empty => rfl
  | other notOpening notClosing _ inductionHypothesis =>
      rw [List.count_cons_of_ne notOpening, List.count_cons_of_ne notClosing,
        inductionHypothesis]
  | loop _ _ bodyHypothesis restHypothesis =>
      simp [bodyHypothesis, restHypothesis]
      omega

/-- A closing bracket behind a balanced code closes too much. -/
theorem overcloses_closing (balanced : Balanced code) : Overcloses (code ++ [']']) := by
  simp [Overcloses, balanced.count_brackets]

/-- No front part of a balanced code closes more than it opens. -/
theorem not_overcloses_take (balanced : Balanced code) (length : Nat) :
    ¬ Overcloses (code.take length) := by
  unfold Overcloses
  rw [Nat.not_lt]
  induction balanced generalizing length with
  | empty => simp
  | @other character rest notOpening notClosing _ inductionHypothesis =>
      cases length with
      | zero => simp
      | succ length =>
          rw [List.take_succ_cons, List.count_cons_of_ne notOpening,
            List.count_cons_of_ne notClosing]
          exact inductionHypothesis length
  | @loop body rest balancedBody _ bodyHypothesis restHypothesis =>
      cases length with
      | zero => simp
      | succ length =>
          have atBody := bodyHypothesis length
          rw [List.take_succ_cons, List.take_append]
          cases beyond : length - body.length with
          | zero =>
              simp
              omega
          | succ further =>
              -- The cut is behind the closing bracket, so the whole body is in front of it.
              have whole : body.take length = body := List.take_of_length_le (by omega)
              have atRest := restHypothesis further
              have even := balancedBody.count_brackets
              simp [whole]
              omega

end Balanced

namespace Opens

variable {depth : Nat} {code : List Char}

/-- Balanced code behind leaves as much open as before. -/
theorem append (opens : Opens depth code) {behind : List Char} (balanced : Balanced behind) :
    Opens depth (code ++ behind) := by
  cases opens with
  | outside balancedCode => exact .outside (balancedCode.append balanced)
  | inside opensOuter balancedBody =>
      rw [List.append_assoc, List.cons_append]
      exact .inside opensOuter (balancedBody.append balanced)

/-- An opening bracket leaves one bracket more open. -/
theorem opening (opens : Opens depth code) : Opens (depth + 1) (code ++ ['[']) :=
  .inside opens .empty

/-- A closing bracket leaves one bracket less open. -/
theorem closing (opens : Opens (depth + 1) code) : Opens depth (code ++ [']']) := by
  cases opens with
  | @inside _ outer body opensOuter balancedBody =>
      have loop : Balanced ('[' :: (body ++ [']'])) := .loop balancedBody .empty
      simpa using opensOuter.append loop

/-- No front part closes more than it opens. -/
theorem not_overcloses_take (opens : Opens depth code) (length : Nat) :
    ¬ Overcloses (code.take length) := by
  induction opens generalizing length with
  | outside balanced => exact balanced.not_overcloses_take length
  | @inside depth outer body _ balancedBody inductionHypothesis =>
      have atOuter := inductionHypothesis length
      rw [List.take_append]
      cases beyond : length - outer.length with
      | zero => simpa using atOuter
      | succ further =>
          have atBody := balancedBody.not_overcloses_take further
          unfold Overcloses at atOuter atBody ⊢
          simp
          omega

/-- The innermost bracket that is left open has no partner. -/
theorem exists_alone (opens : Opens (depth + 1) code) :
    ∃ position : Nat, code[position]? = some '[' ∧ ∀ closing, ¬ Partners code position closing := by
  cases opens with
  | @inside _ outer body opensOuter balancedBody =>
      refine ⟨outer.length, by simp, ?_⟩
      rintro closing ⟨before, inner, behind, split, balancedInner, sameLength, -⟩
      obtain ⟨-, sameBody⟩ := List.append_inj split sameLength
      obtain rfl := (List.cons.inj sameBody).2
      -- Together with a partner the body would have closed more than it opened.
      have atPartner := balancedBody.not_overcloses_take (inner.length + 1)
      rw [take_through] at atPartner
      exact atPartner balancedInner.overcloses_closing

/-- Where brackets are left open, there are some. -/
theorem mem_opening (opens : Opens (depth + 1) code) : '[' ∈ code := by
  cases opens with
  | inside opensOuter balancedBody => simp

end Opens

/-- The last opening bracket of a code stands at this position. -/
def LastOpeningAt (code : List Char) (position : Nat) : Prop :=
  ∃ front behind, code = front ++ '[' :: behind ∧ '[' ∉ behind ∧ position = front.length

/-- It stays the last one until there is another. -/
theorem LastOpeningAt.append {code : List Char} {position : Nat}
    (last : LastOpeningAt code position) {character : Char} (other : character ≠ '[') :
    LastOpeningAt (code ++ [character]) position := by
  obtain ⟨front, behind, rfl, none, rfl⟩ := last
  refine ⟨front, behind ++ [character], by simp, ?_, rfl⟩
  simpa [none] using other.symm

/-- Such is a code that a scan has read without finding a fault, when it keeps this
depth and this position of an opening bracket. -/
structure Scanned (read : List Char) (depth lastOpening : Nat) : Prop where
  opens : Opens depth read
  last : '[' ∈ read -> LastOpeningAt read lastOpening

namespace Scanned

variable {read : List Char} {depth lastOpening : Nat}

/-- Nothing has been read at first. -/
theorem nothing : Scanned [] 0 0 :=
  ⟨.outside .empty, nofun⟩

/-- A character that is no bracket changes nothing. -/
theorem other (scanned : Scanned read depth lastOpening) {character : Char}
    (noBracket : Bracket.ofChar? character = none) :
    Scanned (read ++ [character]) depth lastOpening := by
  obtain ⟨notOpening, notClosing⟩ := Bracket.ofChar?_eq_none_iff.mp noBracket
  refine ⟨scanned.opens.append (.other notOpening notClosing .empty), ?_⟩
  intro member
  have inside : '[' ∈ read := by simpa [notOpening.symm] using member
  exact (scanned.last inside).append notOpening

/-- An opening bracket is the last one from now on. -/
theorem opening (scanned : Scanned read depth lastOpening) :
    Scanned (read ++ ['[']) (depth + 1) read.length :=
  ⟨scanned.opens.opening, fun _ => ⟨read, [], rfl, nofun, rfl⟩⟩

/-- A closing bracket is the partner of the innermost bracket that is open. -/
theorem closing (scanned : Scanned read (depth + 1) lastOpening) :
    Scanned (read ++ [']']) depth lastOpening := by
  refine ⟨scanned.opens.closing, ?_⟩
  intro member
  have inside : '[' ∈ read := by simpa using member
  exact (scanned.last inside).append (by decide)

end Scanned

/-- What a scan may find in a code, and what that says about the code. -/
inductive Finds (code : List Char) : Option (Bracket × Nat) -> Prop where
  | nothing (balanced : Balanced code) : Finds code none
  | closing {before behind : List Char} (split : code = before ++ ']' :: behind)
      (balanced : Balanced before) : Finds code (some (.closing, before.length))
  | opening {depth position : Nat} (opens : Opens (depth + 1) code)
      (last : LastOpeningAt code position) : Finds code (some (.opening, position))

/-- What a scan finds in the rest of a code. -/
theorem Scanned.finds {read rest : List Char} {depth lastOpening : Nat}
    (scanned : Scanned read depth lastOpening) :
    Finds (read ++ rest) (findFault read.length depth lastOpening rest) := by
  induction rest generalizing read depth lastOpening with
  | nil =>
      rw [List.append_nil]
      cases depth with
      | zero =>
          cases scanned.opens with
          | outside balanced => exact .nothing balanced
      | succ depth => exact .opening scanned.opens (scanned.last scanned.opens.mem_opening)
  | cons character rest inductionHypothesis =>
      have onward {depth lastOpening : Nat}
          (scannedOn : Scanned (read ++ [character]) depth lastOpening) :
          Finds (read ++ character :: rest)
            (findFault (read.length + 1) depth lastOpening rest) := by
        simpa using inductionHypothesis scannedOn
      cases bracket? : Bracket.ofChar? character with
      | none =>
          rw [findFault_other bracket?]
          exact onward (scanned.other bracket?)
      | some bracket =>
          obtain rfl := Bracket.ofChar?_eq_some_iff.mp bracket?
          cases bracket with
          | opening => exact onward scanned.opening
          | closing =>
              cases depth with
              | zero =>
                  cases scanned.opens with
                  | outside balanced => exact .closing rfl balanced
              | succ depth => exact onward scanned.closing

/-- A code is refused for what a scan from its first character finds. -/
theorem finds_of_validate {code : List Char} {fault : Fault}
    (refused : validate code = .error fault) :
    fault = Fault.ofCode code fault.bracket fault.position ∧
      Finds code (some (fault.bracket, fault.position)) := by
  have finds : Finds code (findFault 0 0 0 code) := Scanned.nothing.finds
  unfold validate at refused
  split at refused
  · simp at refused
  · rename_i found
    obtain rfl := Except.error.inj refused
    exact ⟨rfl, found ▸ finds⟩

/-- The closing bracket at this position is the first that closes too much: it has no
partner, there is nothing wrong in front of it, and nothing behind it makes a difference
to where the fault is. -/
structure ClosesTooMuchAt (code : List Char) (position : Nat) : Prop where
  bracket : code[position]? = some ']'
  overcloses : Overcloses (code.take (position + 1))
  least : ∀ earlier, earlier < position -> ¬ Overcloses (code.take (earlier + 1))
  alone : ∀ opening, ¬ Partners code opening position
  before : Balanced (code.take position)
  regardless : ∀ other : List Char, other.take (position + 1) = code.take (position + 1) ->
    ∃ fault, validate other = .error fault ∧ fault.bracket = .closing ∧ fault.position = position

/-- The opening bracket at this position is the last, and one of those up to it has no
partner. It is the last itself that has none exactly if no bracket closes behind it. -/
structure LeavesOpenAt (code : List Char) (position : Nat) : Prop where
  bracket : code[position]? = some '['
  last : ∀ later, position < later -> code[later]? ≠ some '['
  unmatched : ∃ opening, opening ≤ position ∧ code[opening]? = some '[' ∧
    ∀ closing, ¬ Partners code opening closing
  alone_iff : (∀ closing, ¬ Partners code position closing) ↔
    ∀ later, position < later -> code[later]? ≠ some ']'

/-- The excerpt of a fault shows the bracket with up to five characters before it. -/
structure Fault.Shows (fault : Fault) (code : List Char) : Prop where
  inside : fault.position < code.length
  excerpt : fault.excerpt =
    code.extract (fault.position - 5) (min code.length (fault.position - 5 + 11))
  nonempty : fault.excerpt ≠ []
  bracket : fault.excerpt[min 5 fault.position]? = some fault.bracket.toChar

section Closing

variable {before behind : List Char}

/-- A closing bracket behind a balanced code is the fault, whatever follows. -/
theorem validate_closing (balanced : Balanced before) (behind : List Char) :
    validate (before ++ ']' :: behind) =
      .error (Fault.ofCode (before ++ ']' :: behind) .closing before.length) := by
  obtain ⟨latest, scanned⟩ := findFault_append_of_balanced balanced 0 0 0 (']' :: behind)
  rw [Nat.zero_add, findFault_closing_zero] at scanned
  rw [validate, scanned]

/-- A closing bracket behind a balanced code has no partner. -/
theorem Balanced.closing_alone (balanced : Balanced before) (opening : Nat) :
    ¬ Partners (before ++ ']' :: behind) opening before.length := by
  rintro ⟨front, body, back, split, balancedBody, -, sameLength⟩
  have opened : before = front ++ '[' :: body := by
    have regrouped : before ++ ']' :: behind = (front ++ '[' :: body) ++ ']' :: back := by
      rw [split, List.append_assoc, List.cons_append]
    exact (List.append_inj regrouped (by simpa using sameLength)).1
  -- In front of the opening bracket, more would have been closed than opened.
  have atFront := balanced.not_overcloses_take front.length
  have even := balanced.count_brackets
  have evenBody := balancedBody.count_brackets
  rw [opened, List.take_left] at atFront
  unfold Overcloses at atFront
  simp [opened] at even
  omega

/-- A closing bracket behind a balanced code closes too much. -/
theorem Balanced.closesTooMuchAt (balanced : Balanced before) :
    ClosesTooMuchAt (before ++ ']' :: behind) before.length where
  bracket := by simp
  overcloses := by
    rw [take_through]
    exact balanced.overcloses_closing
  least := by
    intro earlier less
    rw [List.take_append_of_le_length less]
    exact balanced.not_overcloses_take (earlier + 1)
  alone := balanced.closing_alone
  before := by rwa [List.take_left]
  regardless := by
    intro other same
    rw [take_through] at same
    have split : other = before ++ ']' :: other.drop (before.length + 1) := by
      have whole := List.take_append_drop (before.length + 1) other
      rwa [same, List.append_assoc, List.singleton_append, eq_comm] at whole
    rw [split]
    exact ⟨_, validate_closing balanced _, rfl, rfl⟩

end Closing

section Opening

variable {front behind : List Char}

/-- What stands behind a character stands further on in the code. -/
theorem getElem?_behind (character : Char) {later : Nat} (further : front.length < later) :
    (front ++ character :: behind)[later]? = behind[later - (front.length + 1)]? := by
  obtain ⟨offset, rfl⟩ := Nat.exists_eq_add_of_le further
  rw [List.getElem?_append_right (by omega)]
  rw [show front.length.succ + offset - front.length = offset + 1 by omega,
    show front.length.succ + offset - (front.length + 1) = offset by omega,
    List.getElem?_cons_succ]

/-- The last opening bracket has a partner if and only if a bracket closes behind it. -/
theorem last_alone_iff (last : '[' ∉ behind) :
    (∀ closing, ¬ Partners (front ++ '[' :: behind) front.length closing) ↔ ']' ∉ behind := by
  constructor
  · intro alone member
    obtain ⟨body, rest, rfl, noClosing⟩ := List.eq_append_cons_of_mem member
    have balanced : Balanced body := by
      apply balanced_of_no_bracket
      intro character inside
      constructor
      · rintro rfl
        exact last (List.mem_append_left _ inside)
      · rintro rfl
        exact noClosing inside
    exact alone _ ⟨front, body, rest, rfl, balanced, rfl, rfl⟩
  · rintro none closing ⟨before, body, rest, split, -, sameLength, -⟩
    obtain ⟨-, sameBehind⟩ := List.append_inj split sameLength
    rw [(List.cons.inj sameBehind).2] at none
    simp at none

/-- Where a code leaves brackets open, its last opening bracket is the fault. -/
theorem LastOpeningAt.leavesOpenAt {code : List Char} {position depth : Nat}
    (lastAt : LastOpeningAt code position) (opens : Opens (depth + 1) code) :
    LeavesOpenAt code position := by
  obtain ⟨front, behind, rfl, none, rfl⟩ := lastAt
  have last : ∀ later, front.length < later -> (front ++ '[' :: behind)[later]? ≠ some '[' := by
    intro later further here
    rw [getElem?_behind '[' further] at here
    exact none (List.mem_of_getElem? here)
  have closes : (∀ later, front.length < later ->
      (front ++ '[' :: behind)[later]? ≠ some ']') ↔ ']' ∉ behind := by
    constructor
    · intro nowhere member
      obtain ⟨offset, here⟩ := List.getElem?_of_mem member
      refine nowhere (front.length + 1 + offset) (by omega) ?_
      rw [getElem?_behind '[' (by omega), Nat.add_sub_cancel_left]
      exact here
    · intro absent later further here
      rw [getElem?_behind '[' further] at here
      exact absent (List.mem_of_getElem? here)
  obtain ⟨opening, stands, alone⟩ := opens.exists_alone
  refine ⟨by simp, last, ⟨opening, ?_, stands, alone⟩, ?_⟩
  · exact Nat.le_of_not_lt fun further => last opening further stands
  · rw [last_alone_iff none, closes]

end Opening

/-- The excerpt of a fault shows the bracket that stands at its position. -/
theorem Fault.shows_ofCode {code : List Char} {bracket : Bracket} {position : Nat}
    (stands : code[position]? = some bracket.toChar) :
    (Fault.ofCode code bracket position).Shows code := by
  have shown : (Fault.excerptAt code position)[min 5 position]? = some bracket.toChar := by
    rw [Fault.excerptAt, Fault.excerptLength, Fault.leadingContext,
      List.getElem?_take_of_lt (by omega), List.getElem?_drop,
      show position - 5 + min 5 position = position by omega]
    exact stands
  refine ⟨(List.getElem?_eq_some_iff.mp stands).1, ?_, ?_, shown⟩
  · change (code.drop (position - 5)).take 11 =
      code.extract (position - 5) (min code.length (position - 5 + 11))
    rw [List.extract_eq_take_drop, List.take_eq_take_iff, List.length_drop]
    omega
  · intro empty
    change Fault.excerptAt code position = [] at empty
    simp [empty] at shown

/-- Where validation finds fault with a code. If some front part closes more than it
opens, it is at the closing bracket that does so first; otherwise it is at the last
opening bracket, and some bracket up to there has no partner. -/
theorem validate_localises {code : List Char} {fault : Fault}
    (refused : validate code = .error fault) :
    ((∃ length, Overcloses (code.take length)) ->
      fault.bracket = .closing ∧ ClosesTooMuchAt code fault.position) ∧
    ((¬ ∃ length, Overcloses (code.take length)) ->
      fault.bracket = .opening ∧ LeavesOpenAt code fault.position) ∧
    fault.Shows code := by
  obtain ⟨located, finds⟩ := finds_of_validate refused
  rcases fault with ⟨bracket, position, excerpt⟩
  cases finds with
  | @closing before behind split balanced =>
      subst split
      have closes : ClosesTooMuchAt (before ++ ']' :: behind) before.length :=
        balanced.closesTooMuchAt
      refine ⟨fun _ => ⟨rfl, closes⟩, ?_, ?_⟩
      · exact fun nowhere => absurd ⟨_, closes.overcloses⟩ nowhere
      · exact located ▸ Fault.shows_ofCode closes.bracket
  | opening opens last =>
      have leaves := last.leavesOpenAt opens
      refine ⟨?_, fun _ => ⟨rfl, leaves⟩, ?_⟩
      · rintro ⟨length, overcloses⟩
        exact absurd overcloses (opens.not_overcloses_take length)
      · exact located ▸ Fault.shows_ofCode leaves.bracket

/-- The last opening bracket has a partner, and the one before it has none. -/
theorem validate_localises_matched :
    ∃ fault, validate ['[', '+', 'é', '.', '[', '-', ']', 'x'] = .error fault ∧
      ((∃ length, Overcloses (['[', '+', 'é', '.', '[', '-', ']', 'x'].take length)) ->
        fault.bracket = .closing ∧
          ClosesTooMuchAt ['[', '+', 'é', '.', '[', '-', ']', 'x'] fault.position) ∧
      ((¬ ∃ length, Overcloses (['[', '+', 'é', '.', '[', '-', ']', 'x'].take length)) ->
        fault.bracket = .opening ∧
          LeavesOpenAt ['[', '+', 'é', '.', '[', '-', ']', 'x'] fault.position) ∧
      fault.Shows ['[', '+', 'é', '.', '[', '-', ']', 'x'] :=
  ⟨_, rfl, validate_localises rfl⟩

end Brainfuck
