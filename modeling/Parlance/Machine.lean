import Parlance.Environment

/-!
# Running programs

A machine is what a program runs on: its variables and its streams. A run is an action on a
machine that may be interrupted, by a runtime error or because it was cut off: a loop was not over
after as many rounds as it was allowed, or the input it waits for is not there yet. What a run did
before it was interrupted is kept.

A program terminates on a machine if some number of rounds is enough for it. A run that is not cut
off gives the same answer with more rounds.
-/

namespace Parlance

/-- What a program runs on. -/
structure Machine where
  /-- The variables. -/
  environment : Environment
  /-- The streams. -/
  streams : Streams

/-- Why a run did not come to its end. -/
inductive Interruption where
  /-- Something went wrong. -/
  | failed (error : RuntimeError)
  /-- The run was cut off. -/
  | unfinished
deriving DecidableEq, Repr

/-- An action on a machine. -/
abbrev Run := EStateM Interruption Machine

namespace Machine

/-- A machine without variables. -/
def fresh (streams : Streams) : Machine := ⟨.empty, streams⟩

end Machine

namespace Run

/-- Ends the run with a fault at a place. -/
def fail {α : Type} (fault : RuntimeFault) (position : Position) : Run α :=
  throw (.failed ⟨fault, position⟩)

/-- A result that was obtained at a place; its fault ends the run. -/
def ofExcept {α : Type} (position : Position) : Except RuntimeFault α → Run α
  | .ok value => return value
  | .error fault => fail fault position

/-- An action on the streams, whose failure is a fault at a place. -/
def console {α : Type} (position : Position) (action : Console α) : Run α := fun machine =>
  match action machine.streams with
  | .ok value streams => .ok value { machine with streams := streams }
  | .error (.failed fault) streams =>
    .error (.failed ⟨.stream fault, position⟩) { machine with streams := streams }
  | .error .pending streams => .error .unfinished { machine with streams := streams }

/-- The value of a variable that is mentioned at a place. -/
def lookup (name : String) (position : Position) : Run Value := do
  ofExcept position ((← get).environment.get name)

/-- Gives a value to a variable. -/
def assign (name : String) (value : Value) : Run Unit :=
  modify fun machine => { machine with environment := machine.environment.assign name value }

/-- Repeats a body as long as a condition holds, for no more than a number of rounds. -/
def repeatWhile (condition : Run Value) (body : Run Unit) : Nat → Run Unit
  | 0 => throw .unfinished
  | rounds + 1 => do
    if (← condition).isTruthy then
      body
      repeatWhile condition body rounds

end Run

end Parlance
