import Parlance.Number

/-!
# Reading a number

A number is read from a sign, digits with a point among or beside them, and an exponent; or from
one of the words `inf`, `infinity` and `nan` in any case. All of the text has to belong to it. The
decimal is rounded once, from its exact value.
-/

namespace Parlance.Number

/-- The natural number that digits stand for. -/
def digitsValue (digits : List Char) : Nat :=
  digits.foldl (fun value digit => 10 * value + (digit.toNat - '0'.toNat)) 0

/-- The number `coefficient * 10 ^ exponent`. An exponent that puts it beyond every magnitude, or
below half the least one, is not raised to a power. -/
def ofScientific (negative : Bool) (coefficient : Nat) (exponent : Int) : Number :=
  if coefficient = 0 then zero negative
  else if 400 < exponent then infinite negative
  else if 0 ≤ exponent then round negative (coefficient * Nat.pow 10 exponent.toNat * unitsPerOne) 1
  else if coefficient.log2 + 400 < -exponent then zero negative
  else round negative (coefficient * unitsPerOne) (Nat.pow 10 (-exponent).toNat)

/-- A sign, if there is one, and what follows it. -/
def splitSign : List Char → Bool × List Char
  | '-' :: cs => (true, cs)
  | '+' :: cs => (false, cs)
  | cs => (false, cs)

/-- The exponent that ends a number: nothing, or a mark, a sign and digits. -/
def exponent? : List Char → Option Int
  | [] => some 0
  | mark :: cs =>
    let (negative, digits) := splitSign cs
    if (mark == 'e' || mark == 'E') && !digits.isEmpty && digits.all Char.isDigit then
      some (if negative then -(digitsValue digits : Int) else digitsValue digits)
    else none

/-- A decimal without its sign. -/
def decimal? (negative : Bool) (cs : List Char) : Option Number :=
  let whole := cs.takeWhile Char.isDigit
  let behind := cs.drop whole.length
  let fraction := if behind.head? = some '.' then behind.tail.takeWhile Char.isDigit else []
  let rest := if behind.head? = some '.' then behind.tail.drop fraction.length else behind
  if whole.isEmpty && fraction.isEmpty then none
  else
    (exponent? rest).map fun exponent =>
      ofScientific negative (digitsValue (whole ++ fraction)) (exponent - fraction.length)

/-- The number that a text stands for, if it does. -/
def read? (text : String) : Option Number :=
  let (negative, cs) := splitSign text.toList
  let word := String.ofList (cs.map Char.toLower)
  if word == "nan" then some nan
  else if word == "inf" || word == "infinity" then some (infinite negative)
  else decimal? negative cs

end Parlance.Number
