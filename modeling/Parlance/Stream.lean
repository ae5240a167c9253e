/-!
# The streams of a program

A program reads lines from an input and writes text to an output; both may fail. The input is the
list of bytes not yet read and what lies behind them. The output holds what was written; it may be
limited in size, and it may refuse to be flushed.

A line ends with a newline, which does not belong to it, nor does one carriage return before it;
the last line may go without. A line that is no UTF-8 text is an error, and it is consumed. A
`Console` is an action on both streams that may fail; what it did before it failed is kept.
-/

namespace Parlance

/-- What can go wrong with a stream. -/
inductive StreamFault where
  /-- The input broke off. -/
  | readFailed
  /-- A line is no UTF-8 text. -/
  | invalidText
  /-- The output takes no more. -/
  | closed
  /-- The output could not be flushed. -/
  | flushFailed
deriving DecidableEq, Repr

/-- The wording of a stream fault. -/
def StreamFault.message : StreamFault → String
  | readFailed => "read failed"
  | invalidText => "stream did not contain valid UTF-8"
  | closed => "closed"
  | flushFailed => "flush failed"

/-! ## Input -/

/-- What lies behind the last byte of an input. -/
inductive Ending where
  /-- Nothing: the input is over. -/
  | over
  /-- A fault, at every attempt to read on. -/
  | broken
  /-- More input, which is not there yet. -/
  | pending
deriving DecidableEq, Repr

/-- An input stream. -/
structure Input where
  /-- The bytes not yet read. -/
  unread : List UInt8
  /-- What lies behind them. -/
  ending : Ending
deriving DecidableEq, Repr

/-- What the attempt to read a line can give. -/
inductive LineRead where
  /-- A line, without its end. -/
  | line (text : String)
  /-- The input was over. -/
  | over
  /-- The line could not be read. -/
  | failed (fault : StreamFault)
  /-- The line is not there yet. -/
  | pending
deriving DecidableEq, Repr

namespace Input

/-- The byte that ends a line. -/
def newline : UInt8 := 10

/-- The byte that may stand before the end of a line. -/
def carriageReturn : UInt8 := 13

/-- The input that holds these bytes and then is over. -/
def ofBytes (bytes : List UInt8) : Input := ⟨bytes, .over⟩

/-- Bytes as a line of text. -/
def decodeLine (bytes : List UInt8) : LineRead :=
  match String.fromUTF8? bytes.toByteArray with
  | some text => .line text
  | none => .failed .invalidText

/-- A line without the carriage return at its end. -/
def dropCarriageReturn (bytes : List UInt8) : List UInt8 :=
  if bytes.getLast? = some carriageReturn then bytes.dropLast else bytes

/-- The next line of an input, and the input behind it. A line that breaks off in a fault is lost. -/
def readLine (input : Input) : LineRead × Input :=
  let line := input.unread.takeWhile (· != newline)
  match input.unread.dropWhile (· != newline) with
  | _ :: rest => (decodeLine (dropCarriageReturn line), { input with unread := rest })
  | [] =>
    match input.ending with
    | .over => (if line.isEmpty then .over else decodeLine line, { input with unread := [] })
    | .broken => (.failed .readFailed, { input with unread := [] })
    | .pending => (.pending, input)

end Input

/-! ## Output -/

/-- An output stream. -/
structure Output where
  /-- The bytes written so far. -/
  written : ByteArray
  /-- How many bytes it takes in all, if not any number. -/
  limit : Option Nat
  /-- Whether flushing it fails. -/
  flushFails : Bool

namespace Output

/-- An output that never fails, with nothing written. -/
def empty : Output := ⟨.empty, none, false⟩

/-- Whether this many more bytes can be written. -/
def accepts (output : Output) (size : Nat) : Bool :=
  match output.limit with
  | none => true
  | some limit => decide (output.written.size + size ≤ limit)

/-- The output after a text is written to it, up to its limit, and the fault if that is short. -/
def write (output : Output) (text : String) : Option StreamFault × Output :=
  let bytes := text.toUTF8
  if output.accepts bytes.size then (none, { output with written := output.written ++ bytes })
  else
    let room := output.limit.getD 0 - output.written.size
    (some .closed, { output with written := output.written ++ bytes.extract 0 room })

end Output

/-! ## Both streams -/

/-- The streams of a program. -/
structure Streams where
  input : Input
  output : Output

/-- Why an action on the streams did not come to its end. -/
inductive ConsoleStop where
  /-- A stream failed. -/
  | failed (fault : StreamFault)
  /-- The input is not there yet. -/
  | pending
deriving DecidableEq, Repr

/-- An action on the streams. -/
abbrev Console := EStateM ConsoleStop Streams

namespace Console

/-- Reads a line; there is none when the input is over. -/
def readLine : Console (Option String) := fun streams =>
  let (read, input) := streams.input.readLine
  let streams := { streams with input := input }
  match read with
  | .line text => .ok (some text) streams
  | .over => .ok none streams
  | .failed fault => .error (.failed fault) streams
  | .pending => .error .pending streams

/-- Writes a text. -/
def write (text : String) : Console Unit := fun streams =>
  let (fault, output) := streams.output.write text
  let streams := { streams with output := output }
  match fault with
  | none => .ok () streams
  | some fault => .error (.failed fault) streams

/-- Makes sure that everything written is visible. -/
def flush : Console Unit := fun streams =>
  if streams.output.flushFails then .error (.failed .flushFailed) streams else .ok () streams

/-- Writes a text on a line of its own: the text, then the end of the line. -/
def writeLine (text : String) : Console Unit := do
  write text
  write "\n"

/-- Writes a text before which the user is to type. -/
def prompt (text : String) : Console Unit := do
  write text
  flush

end Console

end Parlance
