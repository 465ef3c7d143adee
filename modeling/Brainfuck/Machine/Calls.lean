import Brainfuck.Machine.Interpreter

/-!
# Calls

How an interpreter is driven: whoever holds it asks for single steps and for runs, in
any order, and goes on asking after failures. A call is answered with how it ended and
with what it logged. The fuel of a run stands for the time that one is willing to wait:
if it is enough, the answer is that of a run without limits, and if it is not, the
answer shows how far such a run has come by then.
-/

namespace Brainfuck

/-- What an interpreter can be asked for. -/
inductive Call where
  | step
  /-- A run that takes no more steps than it has fuel. -/
  | run (fuel : Nat)
  deriving DecidableEq, Repr

/-- The answer to a call, and all that was logged meanwhile. -/
inductive Reply where
  | stepped (failure? : Option IoFailure) (log : List Event)
  | ran (ending : Ending) (log : List Event)
  deriving DecidableEq, Repr

namespace Machine

variable {σ τ : Type} [Source σ] [Sink τ]

/-- The answer of a machine to a call, and what the call leaves of the machine. -/
def call (program : Program) (machine : Machine σ τ) : Call -> Reply × Machine σ τ
  | .step =>
      let attempt := machine.step program
      (.stepped attempt.failure? attempt.events, attempt.after)
  | .run fuel =>
      let run := machine.run program fuel
      (.ran run.ending run.log, run.machine)

/-- The answers to calls in a row, whatever they are, and what these leave of the
machine. -/
def callAll (program : Program) : List Call -> Machine σ τ -> List Reply × Machine σ τ
  | [], machine => ([], machine)
  | call :: rest, machine =>
      let (reply, next) := machine.call program call
      let (replies, last) := callAll program rest next
      (reply :: replies, last)

/-- The calls behind the first one are made of what that one leaves. -/
theorem callAll_cons (program : Program) (call : Call) (rest : List Call)
    (machine : Machine σ τ) :
    callAll program (call :: rest) machine =
      ((machine.call program call).1 :: (callAll program rest (machine.call program call).2).1,
        (callAll program rest (machine.call program call).2).2) := rfl

end Machine

namespace Interpreter

variable {σ τ : Type} [Source σ] [Sink τ]

/-- The answers of an interpreter to calls in a row. -/
def replies (interpreter : Interpreter σ τ) (calls : List Call) : List Reply :=
  (Machine.callAll interpreter.program calls interpreter.machine).1

/-- The machine of an interpreter after calls in a row. -/
def afterCalls (interpreter : Interpreter σ τ) (calls : List Call) : Machine σ τ :=
  (Machine.callAll interpreter.program calls interpreter.machine).2

end Interpreter

end Brainfuck
