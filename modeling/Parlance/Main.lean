import Parlance.CommandLine

/-!
# The program

The outer layer: it reads the arguments, the source file and the standard input, and shows what the
library says was written.

The library runs on an input that is known beforehand. The standard input is not, so a run that
needs more than was read so far stops, and is repeated with more: with one more line from a
terminal, with everything from elsewhere. A run never reads past the lines it uses, so it writes
the same bytes again, and only the new ones are shown.
-/

namespace Parlance.Terminal

/-- More rounds than any loop can take in practice. -/
def rounds : Nat := Nat.pow 10 18

/-- Shows what was written beyond what is shown already. -/
def showNew (stream : IO.FS.Stream) (written : ByteArray) (shown : Nat) : IO Unit := do
  stream.write (written.extract shown written.size)
  stream.flush

/-- Reads a stream to its end. -/
partial def readAll (stream : IO.FS.Stream) (known : ByteArray) : IO ByteArray := do
  let chunk ← stream.read 65536
  if chunk.isEmpty then return known else readAll stream (known ++ chunk)

/-- More of the standard input, and what lies behind it: a line from a terminal, else all of it. -/
def readMore : IO (ByteArray × Ending) := do
  let stdin ← IO.getStdin
  if ← stdin.isTty then
    let line ← stdin.getLine
    return (line.toUTF8, if line.isEmpty then .over else .pending)
  else return (← readAll stdin .empty, .over)

/-- Repeats a run with more input until it comes to its end. -/
partial def perform (run : Input → Completion) (known : ByteArray) (ending : Ending)
    (shown : Nat × Nat) : IO UInt32 := do
  let completion := run ⟨known.toList, ending⟩
  showNew (← IO.getStdout) completion.output shown.1
  showNew (← IO.getStderr) completion.errors shown.2
  match completion.status with
  | some status => return UInt32.ofNat status
  | none =>
    let (more, ending) ← readMore
    perform run (known ++ more) ending (completion.output.size, completion.errors.size)

/-- The contents of a file, if it can be read. -/
def contents? (path : String) : IO (Option ByteArray) := do
  try return some (← IO.FS.readBinFile path)
  catch _ => return none

/-- Carries out what the arguments ask for. -/
def start (arguments : List String) : IO UInt32 := do
  let run : Input → Completion ← match Command.ofArguments arguments with
    | none => pure fun _ => Completion.ofRefusal
    | some (.run path) => pure (Completion.ofFile rounds path (← contents? path))
    | some command => pure (Completion.ofCommand rounds (fun _ => none) command)
  perform run .empty .pending (0, 0)

end Parlance.Terminal

/-- The program. -/
def main (arguments : List String) : IO UInt32 :=
  Parlance.Terminal.start arguments
