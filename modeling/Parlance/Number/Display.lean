import Parlance.Number
import Parlance.Number.Shortest
import Parlance.Text.Marks

/-!
# Numbers as text

A number is written without exponent, with at most sixteen decimal places, and without zeros at
the end of its fraction. It is first written as its shortest decimal. Where that has more places, it
is written again with sixteen places, the exact value rounded and a half going to the even digit, and
the zeros at the end are taken away, and then the point if nothing is left behind it. A zero that kept
its sign on either way loses it at last.
-/

namespace Parlance

open Text

/-- The largest number of decimal places that is written. -/
def displayPlaces : Nat := 16

namespace Number

/-! ## Decimals -/

/-- The digits of a natural number, with zeros before them up to as many as there are places. -/
def paddedDigits (places parts : Nat) : List Char :=
  let digits := Nat.toDigits 10 parts
  List.replicate (places - digits.length) '0' ++ digits

/-- The digits of a fraction of `10 ^ places` parts, without the zeros at its end. -/
def fractionDigits (places parts : Nat) : List Char :=
  trimMarks '0' (paddedDigits places parts)

/-- A multiple of `10 ^ -places` as digits, with a point if there is a fraction. -/
def decimalDigits (places parts : Nat) : List Char :=
  let whole := Nat.toDigits 10 (parts / Nat.pow 10 places)
  match fractionDigits places (parts % Nat.pow 10 places) with
  | [] => whole
  | fraction => whole ++ '.' :: fraction

/-- A multiple of `10 ^ -places` as digits, with all its places. -/
def fixedDigits (places parts : Nat) : List Char :=
  Nat.toDigits 10 (parts / Nat.pow 10 places) ++
    '.' :: paddedDigits places (parts % Nat.pow 10 places)

/-- Digits behind their sign. -/
def signed (negative : Bool) (digits : List Char) : List Char :=
  if negative then '-' :: digits else digits

/-! ## Texts of a number -/

/-- Whether a number is neither an infinity nor not a number. -/
def isFinite : Number → Bool
  | finite _ _ => true
  | _ => false

/-- The text of a number that is not finite. -/
def word : Number → List Char
  | infinite negative => signed negative ['i', 'n', 'f']
  | _ => ['N', 'a', 'N']

/-- A number in full: its shortest decimal, with the sign also of zero. -/
def shortestText : Number → List Char
  | finite negative magnitude =>
    signed negative (decimalDigits Magnitude.tickPlaces magnitude.shortest)
  | n => n.word

/-- A number with a fixed number of decimal places, with the sign also of zero. -/
def fixedText (places : Nat) : Number → List Char
  | finite negative magnitude =>
    signed negative
      (fixedDigits places (roundDiv (magnitude.units * Nat.pow 10 places) unitsPerOne))
  | n => n.word

/-- A number with few decimal places: the shortest decimal if it has so few, else the fixed one
without the zeros at its end and without a point that ends it. The sign of zero may still be there. -/
def plainText (n : Number) : List Char :=
  match splitOnce '.' n.shortestText with
  | some (_, fraction) =>
    if displayPlaces < fraction.length then trimMarks '.' (trimMarks '0' (n.fixedText displayPlaces))
    else n.shortestText
  | none => n.shortestText

/-- The text of a number. -/
def display (n : Number) : String :=
  if n.isFinite then String.ofList (if n.plainText = ['-', '0'] then ['0'] else n.plainText)
  else String.ofList n.shortestText

end Number

end Parlance
