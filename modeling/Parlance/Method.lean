import Parlance.Machine
import Parlance.Number.Reading
import Parlance.Text.Blank

/-!
# The methods of the language

All methods are built in. A method is called by its name in any case, and refuses a wrong number of
arguments before it looks at them. Only `readNumber` and `readString` touch the streams: they write
a prompt and read lines, `readNumber` until a line is a number.
-/

namespace Parlance

/-- The methods. -/
inductive Method where
  | readNumber
  | readString
  | add
  | sub
  | mul
  | div
  | toText
  | concat
  | eq
  | neq
deriving DecidableEq, Repr

namespace Method

/-- The name of a method. -/
def name : Method → String
  | readNumber => "readNumber"
  | readString => "readString"
  | add => "add"
  | sub => "sub"
  | mul => "mul"
  | div => "div"
  | toText => "toString"
  | concat => "concat"
  | eq => "eq"
  | neq => "neq"

/-- How many arguments a method takes. -/
def arity : Method → Nat
  | readNumber | readString | toText => 1
  | add | sub | mul | div | concat | eq | neq => 2

/-- All methods. -/
def all : List Method :=
  [readNumber, readString, add, sub, mul, div, toText, concat, eq, neq]

/-- Whether two names differ at most in the case of ASCII letters. -/
def sameName (a b : String) : Bool :=
  a.toList.map Char.toLower == b.toList.map Char.toLower

/-- The method of a name, in any case. -/
def find? (name : String) : Option Method :=
  all.find? fun method => sameName method.name name

/-- Refuses a wrong number of arguments. -/
def checkArity (method : String) (expected : Nat) (found : Nat) : Except RuntimeFault Unit :=
  if found = expected then .ok () else .error (.argumentCount method expected found)

/-! ## Reading -/

/-- What is said of a line that is no number. -/
def retryNotice : String := "Invalid number. Try again."

/-- Asks for a number until a line is one. Every round but the last reads a line, so there are no
more rounds than bytes to read. -/
def askNumber (prompt : String) (position : Position) : Nat → Run Number
  | 0 => Run.fail .inputExhausted position
  | rounds + 1 => do
    Run.console position (Console.prompt prompt)
    match ← Run.console position Console.readLine with
    | none => Run.fail .inputExhausted position
    | some line =>
      match Number.read? (String.ofList (Text.trim line.toList)) with
      | some value => return value
      | none =>
        Run.console position (Console.writeLine retryNotice)
        askNumber prompt position rounds

/-- Asks for a line; a missing one counts as empty. -/
def askText (prompt : String) (position : Position) : Run String := do
  Run.console position (Console.prompt prompt)
  return (← Run.console position Console.readLine).getD ""

/-! ## Calling -/

/-- Applies an operation to two numbers. -/
def arithmetic (operation : Number → Number → Except RuntimeFault Number) (left right : Value) :
    Except RuntimeFault Value := do
  let a ← left.toNumber
  let b ← right.toNumber
  return .number (← operation a b)

/-- The quotient of two numbers, unless the divisor is negligible. -/
def divide (a b : Number) : Except RuntimeFault Number :=
  if b.isNegligible then .error .divisionByZero else .ok (a.div b)

/-- The result of a method that leaves the streams alone. -/
def compute : Method → List Value → Except RuntimeFault Value
  | add, [a, b] => arithmetic (fun x y => .ok (x.add y)) a b
  | sub, [a, b] => arithmetic (fun x y => .ok (x.sub y)) a b
  | mul, [a, b] => arithmetic (fun x y => .ok (x.mul y)) a b
  | div, [a, b] => arithmetic divide a b
  | toText, [a] => .ok (.text a.display)
  | concat, [a, b] => .ok (.text (a.display ++ b.display))
  | eq, [a, b] => .ok (.ofBool (a.equals b))
  | neq, [a, b] => .ok (.ofBool !(a.equals b))
  | method, arguments =>
    .error (.argumentCount method.name method.arity arguments.length)

/-- Applies a method to arguments at the place of the call. -/
def apply (method : Method) (arguments : List Value) (position : Position) : Run Value := do
  Run.ofExcept position (checkArity method.name method.arity arguments.length)
  match method, arguments with
  | readNumber, [prompt] =>
    let prompt ← Run.ofExcept position prompt.toText
    let rounds := (← get).streams.input.unread.length + 1
    return .number (← askNumber prompt position rounds)
  | readString, [prompt] =>
    let prompt ← Run.ofExcept position prompt.toText
    return .text (← askText prompt position)
  | method, arguments => Run.ofExcept position (method.compute arguments)

/-- Calls a method by name at a place. -/
def invoke (name : String) (arguments : List Value) (position : Position) : Run Value :=
  match find? name with
  | some method => method.apply arguments position
  | none => Run.fail (.unknownMethod name) position

end Method

end Parlance
