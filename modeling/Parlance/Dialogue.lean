import Parlance.Dialogue.Buffer
import Parlance.Interpreter

/-!
# The interactive session

A dialogue reads lines, collects them into submissions and runs each of them on the same machine.
An error in a submission is reported on a stream of its own and the dialogue goes on; only a fault
of its own streams ends it early. It ends with the input, or at a line that asks to leave while no
submission is under way.

The lines of the dialogue and the lines that programs read come from one input. Every turn reads at
least one line, so there are no more turns than bytes to read, and one more.
-/

namespace Parlance

/-- The state of a dialogue. -/
structure Session where
  /-- What the submissions run on. -/
  machine : Machine
  /-- Where errors are reported. -/
  errors : Output
  /-- The lines of the submission under way. -/
  buffer : Dialogue.Buffer

/-- Why a dialogue did not come to its end. -/
inductive DialogueStop where
  /-- One of its streams failed. -/
  | failed (fault : StreamFault)
  /-- It was cut off. -/
  | unfinished
deriving DecidableEq, Repr

/-- A part of a dialogue. -/
abbrev Dialogue := EStateM DialogueStop Session

namespace Dialogue

/-- The session that begins on a machine. -/
def begin (machine : Machine) (errors : Output) : Session := ⟨machine, errors, .empty⟩

/-- An action on the streams of the machine. -/
def console {α : Type} (action : Console α) : Dialogue α := fun session =>
  let resume (streams : Streams) : Session :=
    { session with machine := { session.machine with streams := streams } }
  match action session.machine.streams with
  | .ok value streams => .ok value (resume streams)
  | .error (.failed fault) streams => .error (.failed fault) (resume streams)
  | .error .pending streams => .error .unfinished (resume streams)

/-- Writes a text where errors are reported. -/
def writeError (text : String) : Dialogue Unit := fun session =>
  let (fault, errors) := session.errors.write text
  let session := { session with errors := errors }
  match fault with
  | none => .ok () session
  | some fault => .error (.failed fault) session

/-- Reports an error on a line of its own, piece by piece. -/
def report (message : String) : Dialogue Unit := do
  writeError "M# error: "
  writeError message
  writeError "\n"

/-- Adds a line to the submission under way. -/
def push (line : String) : Dialogue Submission := fun session =>
  let (submission, buffer) := session.buffer.push line
  .ok submission { session with buffer := buffer }

/-- Runs a submission. -/
def submit (rounds : Nat) (source : String) : Dialogue Outcome := fun session =>
  let (outcome, machine) := session.machine.runSource rounds source
  .ok outcome { session with machine := machine }

/-- Reads a line and does what it asks for; the answer is whether the dialogue goes on. -/
def turn (rounds : Nat) : Dialogue Bool := do
  let buffer := (← get).buffer
  console (Console.prompt buffer.prompt)
  match ← console Console.readLine with
  | none =>
    console (Console.writeLine "")
    return false
  | some line =>
    if buffer.isBlank && isQuit line then return false
    match ← push line with
    | .pending => return true
    | .unbalanced =>
      report "Too many closing braces."
      return true
    | .ready source =>
      match ← submit rounds source with
      | .completed => return true
      | .failed failure =>
        report failure.message
        return true
      | .unfinished => throw .unfinished

/-- Takes turns, no more than a number of them. -/
def turns (rounds : Nat) : Nat → Dialogue Unit
  | 0 => return ()
  | count + 1 => do
    if ← turn rounds then turns rounds count

/-- The whole dialogue. -/
def converse (rounds : Nat) : Dialogue Unit := do
  console (Console.writeLine "M# REPL")
  console (Console.writeLine "Type :quit to exit.")
  turns rounds ((← get).machine.streams.input.unread.length + 1)

end Dialogue

end Parlance
