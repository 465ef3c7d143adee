import Brainfuck.Semantics.Stepper

/-!
# Scanning the code

The plainest machine for a code: a cursor over its characters, comments and all.
It knows no jump targets. At a bracket that sends it elsewhere it scans the code,
forward or backward, with a counter for the brackets in between. Its steps at
comments count for nothing.
-/

namespace Brainfuck

/-- A state and a cursor over the characters of a code. -/
structure Scanner (σ τ : Type) where
  state : State σ τ
  cursor : Nat

namespace Scanner

/-- The number of characters before the bracket that brings a count of `depth`
brackets in between below zero; brackets on the side of `deeper` raise it. -/
def distanceToPartner (deeper : Bracket) (depth : Nat) : List Char -> Option Nat
  | [] => none
  | character :: rest =>
      match Bracket.ofChar? character with
      | none => (distanceToPartner deeper depth rest).map (· + 1)
      | some bracket =>
          if bracket = deeper then (distanceToPartner deeper (depth + 1) rest).map (· + 1)
          else
            match depth with
            | 0 => some 0
            | shallower + 1 => (distanceToPartner deeper shallower rest).map (· + 1)

/-- The place of the closing bracket that is the partner of an opening one. -/
def closingPartner? (code : List Char) (place : Nat) : Option Nat :=
  (distanceToPartner .opening 0 (code.drop (place + 1))).map (place + 1 + ·)

/-- The place of the opening bracket that is the partner of a closing one. -/
def openingPartner? (code : List Char) (place : Nat) : Option Nat :=
  (distanceToPartner .closing 0 (code.take place).reverse).map (place - 1 - ·)

/-- The scanner at the first character. -/
def start {σ τ : Type} (tape : Tape) (source : σ) (sink : τ) : Scanner σ τ where
  state := ⟨tape, source, sink⟩
  cursor := 0

variable {σ τ : Type} [Source σ] [Sink τ]

/-- Attempts the character under the cursor. A comment moves the cursor and does
nothing else; so does a bracket without a partner. There is nothing to do behind
the code. -/
def step (code : List Char) (scanner : Scanner σ τ) : Attempt (Scanner σ τ) :=
  match code[scanner.cursor]?.map Symbol.ofChar? with
  | none => ⟨scanner, none, []⟩
  | some none => ⟨⟨scanner.state, scanner.cursor + 1⟩, none, []⟩
  | some (some (.command action)) =>
      match scanner.state.perform action with
      | ⟨next, none, events⟩ => ⟨⟨next, scanner.cursor + 1⟩, none, events⟩
      | ⟨next, some failure, events⟩ => ⟨⟨next, scanner.cursor⟩, some failure, events⟩
  | some (some (.bracket .opening)) =>
      if scanner.state.tape.cell = 0 then
        match closingPartner? code scanner.cursor with
        | some partner => ⟨⟨scanner.state, partner + 1⟩, none, []⟩
        | none => ⟨⟨scanner.state, scanner.cursor + 1⟩, none, []⟩
      else ⟨⟨scanner.state, scanner.cursor + 1⟩, none, []⟩
  | some (some (.bracket .closing)) =>
      match openingPartner? code scanner.cursor with
      | some partner => ⟨⟨scanner.state, partner⟩, none, []⟩
      | none => ⟨⟨scanner.state, scanner.cursor + 1⟩, none, []⟩

/-- A comment only moves the cursor. -/
theorem step_of_comment {code : List Char} {state : State σ τ} {cursor : Nat} {character : Char}
    (here : code[cursor]? = some character) (meaningless : Symbol.ofChar? character = none) :
    step code ⟨state, cursor⟩ = ⟨⟨state, cursor + 1⟩, none, []⟩ := by
  simp [step, here, meaningless]

/-- A command that is performed moves the cursor. -/
theorem step_of_performed {code : List Char} {state next : State σ τ} {cursor : Nat}
    {command : Command} {events : List Event} (here : code[cursor]? = some command.toChar)
    (performed : state.perform command = ⟨next, none, events⟩) :
    step code ⟨state, cursor⟩ = ⟨⟨next, cursor + 1⟩, none, events⟩ := by
  simp [step, here, performed]

/-- A command that fails leaves the cursor where it is. -/
theorem step_of_failed {code : List Char} {state next : State σ τ} {cursor : Nat}
    {command : Command} {failure : IoFailure} {events : List Event}
    (here : code[cursor]? = some command.toChar)
    (performed : state.perform command = ⟨next, some failure, events⟩) :
    step code ⟨state, cursor⟩ = ⟨⟨next, cursor⟩, some failure, events⟩ := by
  simp [step, here, performed]

/-- On a zero cell the scan forward takes the cursor behind the partner. -/
theorem step_of_zero {code : List Char} {state : State σ τ} {cursor partner : Nat}
    (here : code[cursor]? = some '[') (zero : state.tape.cell = 0)
    (found : closingPartner? code cursor = some partner) :
    step code ⟨state, cursor⟩ = ⟨⟨state, partner + 1⟩, none, []⟩ := by
  simp [step, here, zero, found, Symbol.ofChar?]

/-- On any other cell an opening bracket only moves the cursor. -/
theorem step_of_nonzero {code : List Char} {state : State σ τ} {cursor : Nat}
    (here : code[cursor]? = some '[') (nonzero : state.tape.cell ≠ 0) :
    step code ⟨state, cursor⟩ = ⟨⟨state, cursor + 1⟩, none, []⟩ := by
  simp [step, here, nonzero, Symbol.ofChar?]

/-- At a closing bracket the scan backward takes the cursor to the partner. -/
theorem step_of_closing {code : List Char} {state : State σ τ} {cursor partner : Nat}
    (here : code[cursor]? = some ']') (found : openingPartner? code cursor = some partner) :
    step code ⟨state, cursor⟩ = ⟨⟨state, partner⟩, none, []⟩ := by
  simp [step, here, found, Symbol.ofChar?]

/-- A scanner is stepped through the characters of its code; a character that
means something counts for one. -/
def stepper (code : List Char) : Stepper (Scanner σ τ) where
  finished scanner := code.length ≤ scanner.cursor
  step := step code
  weight scanner := if (code[scanner.cursor]?.bind Symbol.ofChar?).isSome then 1 else 0

end Scanner

end Brainfuck
