import Parlance.Number.Magnitude

/-!
# The shortest decimal of a magnitude

Among the decimals that round to a magnitude, the shortest is the one with the fewest digits; of
two of them the nearer one is taken, and of two equally near the larger. It is found on ever finer
decimal grids: if a point of a grid rounds to the magnitude, then so does one of the two points
next to it, so only these are tried.

A decimal is held as a whole number of ticks of `10 ^ -324`, which is finer than the distance of
any two magnitudes.
-/

namespace Parlance.Magnitude

/-- The number of decimal places of a tick. -/
def tickPlaces : Nat := 324

/-- A magnitude in ticks, as a multiple of `1 / unitsPerOne`. -/
def scaledTicks (magnitude : Magnitude) : Nat :=
  magnitude.units * Nat.pow 10 tickPlaces

/-- Half the distance to the next larger magnitude, in quarters of a unit. -/
def gapAbove (magnitude : Magnitude) : Nat :=
  2 * Nat.pow 2 (spareBits magnitude.units)

/-- Half the distance to the next smaller magnitude, in quarters of a unit. Below a power of two
the magnitudes stand twice as dense. -/
def gapBelow (magnitude : Magnitude) : Nat :=
  if spareBits magnitude.units ≠ 0 ∧ magnitude.significand = Nat.pow 2 52 then
    Nat.pow 2 (spareBits magnitude.units)
  else magnitude.gapAbove

/-- Whether a number of ticks rounds to the magnitude. The two midpoints between the magnitude and
its neighbours do so if its last bit is even. -/
def isReadFrom (magnitude : Magnitude) (ticks : Nat) : Bool :=
  let point := 4 * (ticks * unitsPerOne)
  let centre := 4 * magnitude.scaledTicks
  let above := centre + magnitude.gapAbove * Nat.pow 10 tickPlaces
  let below := centre - magnitude.gapBelow * Nat.pow 10 tickPlaces
  if magnitude.significand % 2 = 0 then below ≤ point ∧ point ≤ above
  else below < point ∧ point < above

/-- The multiple of `10 ^ grid` ticks next to the magnitude that rounds to it, if there is one. -/
def onGrid? (magnitude : Magnitude) (grid : Nat) : Option Nat :=
  let step := Nat.pow 10 grid
  let lower := magnitude.scaledTicks / (step * unitsPerOne) * step
  let upper := lower + step
  if magnitude.isReadFrom lower then
    if magnitude.isReadFrom upper then
      if magnitude.scaledTicks - lower * unitsPerOne < upper * unitsPerOne - magnitude.scaledTicks
      then some lower else some upper
    else some lower
  else if magnitude.isReadFrom upper then some upper
  else none

/-- The first hit on the grids of `10 ^ grid` ticks and finer. -/
def shortestFrom (magnitude : Magnitude) : Nat → Nat
  | 0 => (magnitude.onGrid? 0).getD (roundDiv magnitude.scaledTicks unitsPerOne)
  | grid + 1 => (magnitude.onGrid? (grid + 1)).getD (magnitude.shortestFrom grid)

/-- The shortest decimal of a magnitude, in ticks. The search starts at a power of ten above the
magnitude. -/
def shortest (magnitude : Magnitude) : Nat :=
  if magnitude.units = 0 then 0
  else
    let whole := magnitude.units / unitsPerOne
    magnitude.shortestFrom (tickPlaces + (Nat.toDigits 10 whole).length)

end Parlance.Magnitude
