import Parlance.Number

/-!
# Numbers as 64-bit words

The interchange format of IEEE 754 binary64: a sign bit, eleven bits of exponent and 52 bits of
fraction. A magnitude with `k` spare bits is the word `k * 2 ^ 52` plus its leading bits, because
the leading bit of a normal number is not stored but counted into the exponent.
-/

namespace Parlance.Number

/-- The word of a magnitude, without a sign. -/
def magnitudeWord (magnitude : Magnitude) : Nat :=
  spareBits magnitude.units * Nat.pow 2 52 + magnitude.significand

/-- The bit of the sign. -/
def signWord (negative : Bool) : Nat := if negative then Nat.pow 2 63 else 0

/-- The word of a number; `nan` has the one with the leading fraction bit set. -/
def toWord : Number → Nat
  | nan => 0x7FF8000000000000
  | infinite negative => signWord negative + 2047 * Nat.pow 2 52
  | finite negative magnitude => signWord negative + magnitudeWord magnitude

/-- The number of a word. Every word of a `nan` is read as the one `nan`. -/
def ofWord (word : Nat) : Number :=
  let negative := word / Nat.pow 2 63 % 2 == 1
  let exponent := word / Nat.pow 2 52 % 2048
  let fraction := word % Nat.pow 2 52
  if exponent = 2047 then
    if fraction = 0 then infinite negative else nan
  else if exponent = 0 then round negative fraction 1
  else round negative ((Nat.pow 2 52 + fraction) * Nat.pow 2 (exponent - 1)) 1

end Parlance.Number
