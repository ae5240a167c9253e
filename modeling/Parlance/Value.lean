import Parlance.Number.Display
import Parlance.RuntimeError

/-!
# Values

A value is a number or a text. Numbers are compared with a tolerance: two of them are equal if
their difference counts as nothing, and a number counts as true if it does not. A number is never
equal to a text.
-/

namespace Parlance

/-- A value of the language. -/
inductive Value where
  /-- A number. -/
  | number (value : Number)
  /-- A text. -/
  | text (content : String)
deriving DecidableEq

namespace Value

/-- A truth value as a value: the number one or zero. -/
def ofBool (b : Bool) : Value := number (.ofBool b)

/-- The text of a value. -/
def display : Value → String
  | number value => value.display
  | text content => content

/-- Whether a value counts as true: a number that is not negligible, or a text that is not empty. -/
def isTruthy : Value → Bool
  | number value => value.isSubstantial
  | text content => !content.isEmpty

/-- Whether two values are equal, numbers up to a negligible difference. -/
def equals : Value → Value → Bool
  | number a, number b => (a.sub b).isNegligible
  | text a, text b => a == b
  | _, _ => false

/-- Whether two values are the same, numbers by the equality of IEEE 754. -/
def identical : Value → Value → Bool
  | number a, number b => a.numericEq b
  | text a, text b => a == b
  | _, _ => false

/-- The number that a value is. -/
def toNumber : Value → Except RuntimeFault Number
  | number value => .ok value
  | text _ => .error .expectedNumber

/-- The text that a value is. -/
def toText : Value → Except RuntimeFault String
  | number _ => .error .expectedText
  | text content => .ok content

end Value

end Parlance
