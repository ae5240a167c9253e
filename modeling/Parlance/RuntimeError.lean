import Parlance.Position
import Parlance.Stream

/-!
# Runtime errors

What can go wrong while a program runs, and how it is worded. A fault has its place from the
construct that raised it.
-/

namespace Parlance

/-- What can go wrong while a program runs. -/
inductive RuntimeFault where
  /-- A variable has no value. -/
  | unknownVariable (name : String)
  /-- There is no such method. -/
  | unknownMethod (name : String)
  /-- A method was called with the wrong number of arguments. -/
  | argumentCount (method : String) (expected : Nat) (found : Nat)
  /-- A text stands where a number is needed. -/
  | expectedNumber
  /-- A number stands where a text is needed. -/
  | expectedText
  /-- The divisor counts as zero. -/
  | divisionByZero
  /-- The input was over before it gave a number. -/
  | inputExhausted
  /-- A stream failed. -/
  | stream (fault : StreamFault)
deriving DecidableEq, Repr

/-- The wording of a runtime fault. -/
def RuntimeFault.wording : RuntimeFault → String
  | unknownVariable name => "Undefined variable '" ++ name ++ "'."
  | unknownMethod name => "Unknown method '" ++ name ++ "'."
  | argumentCount method expected found =>
    "Method '" ++ method ++ "' expects " ++ toString expected ++ " argument(s), got " ++
      toString found ++ "."
  | expectedNumber => "Expected a number."
  | expectedText => "Expected a string."
  | divisionByZero => "Division by zero."
  | inputExhausted => "Input ended before a valid number was read."
  | stream fault => "I/O failure: " ++ fault.message ++ "."

/-- A runtime fault at its place. -/
abbrev RuntimeError := Located RuntimeFault

/-- The report of a runtime error. -/
def RuntimeError.message (error : RuntimeError) : String :=
  error.report RuntimeFault.wording

end Parlance
