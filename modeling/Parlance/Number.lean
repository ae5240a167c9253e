import Parlance.Number.Magnitude

/-!
# Numbers

A number is an IEEE 754 binary64 datum: not a number, an infinity, or a magnitude with a sign. Zero
has two signs. Equality of data (`=`) tells the zeros apart and is reflexive; `numericEq` is the
equality of IEEE 754, which does neither.

An operation on finite numbers computes the exact result in units and rounds it once. The other
cases follow the standard: what has no value gives `nan`, and a result that is too large gives an
infinity.
-/

namespace Parlance

/-- A number of the language. -/
inductive Number where
  /-- Not a number. -/
  | nan
  /-- An infinity. -/
  | infinite (negative : Bool)
  /-- A magnitude with a sign; the magnitude may be zero. -/
  | finite (negative : Bool) (magnitude : Magnitude)
deriving DecidableEq

namespace Number

/-- The quotient of two counts of units, rounded, with a sign. -/
def round (negative : Bool) (numerator denominator : Nat) : Number :=
  match Magnitude.round? numerator denominator with
  | some magnitude => finite negative magnitude
  | none => infinite negative

/-- Zero with a sign. -/
def zero (negative : Bool) : Number := finite negative .zero

/-- The number one. -/
def one : Number := round false unitsPerOne 1

/-- A truth value as a number: one or zero. -/
def ofBool (b : Bool) : Number := if b then one else zero false

/-- A magnitude with a sign as a whole number of units. -/
def signedUnits (negative : Bool) (magnitude : Magnitude) : Int :=
  if negative then -magnitude.units else magnitude.units

/-! ## Arithmetic -/

/-- The number of the opposite sign. -/
def neg : Number → Number
  | nan => nan
  | infinite negative => infinite !negative
  | finite negative magnitude => finite (!negative) magnitude

/-- The sum of two numbers. Opposite numbers add up to the positive zero. -/
def add : Number → Number → Number
  | nan, _ => nan
  | _, nan => nan
  | infinite s, infinite t => if s = t then infinite s else nan
  | infinite s, finite _ _ => infinite s
  | finite _ _, infinite t => infinite t
  | finite s a, finite t b =>
    let total := signedUnits s a + signedUnits t b
    if total = 0 then zero (s && t) else round (total < 0) total.natAbs 1

/-- The difference of two numbers. -/
def sub (a b : Number) : Number := add a b.neg

/-- The product of two numbers. -/
def mul : Number → Number → Number
  | nan, _ => nan
  | _, nan => nan
  | infinite s, infinite t => infinite (s != t)
  | infinite s, finite t b => if b.units = 0 then nan else infinite (s != t)
  | finite s a, infinite t => if a.units = 0 then nan else infinite (s != t)
  | finite s a, finite t b => round (s != t) (a.units * b.units) unitsPerOne

/-- The quotient of two numbers. -/
def div : Number → Number → Number
  | nan, _ => nan
  | _, nan => nan
  | infinite _, infinite _ => nan
  | infinite s, finite t _ => infinite (s != t)
  | finite s _, infinite t => zero (s != t)
  | finite s a, finite t b =>
    if b.units = 0 then
      if a.units = 0 then nan else infinite (s != t)
    else round (s != t) (a.units * unitsPerOne) b.units

/-! ## Comparison -/

/-- The equality of IEEE 754: `nan` equals nothing, and the two zeros are equal. -/
def numericEq : Number → Number → Bool
  | infinite s, infinite t => s == t
  | finite s a, finite t b => signedUnits s a == signedUnits t b
  | _, _ => false

/-- The largest magnitude that counts as nothing, `2 ^ -52`, in units. -/
def negligibleUnits : Nat := Nat.pow 2 1022

/-- Whether a number is no further from zero than `2 ^ -52`. -/
def isNegligible : Number → Bool
  | finite _ magnitude => decide (magnitude.units ≤ negligibleUnits)
  | _ => false

/-- Whether a number is further from zero than `2 ^ -52`. -/
def isSubstantial : Number → Bool
  | nan => false
  | infinite _ => true
  | finite _ magnitude => decide (negligibleUnits < magnitude.units)

end Number

end Parlance
