/-!
# Magnitudes and their rounding

A number of the language is an IEEE 754 binary64 number. Every finite one is a whole multiple of
`2 ^ -1074`, the unit, so its magnitude is a natural number of units: no exponent and no rational
has to be carried about, and sums are exact before they are rounded. A magnitude has at most 53
significant bits and lies below `2 ^ 1024`.

`nearestUnits` rounds a quotient to 53 significant bits, a half going to the even neighbour, and
`Magnitude.round?` packs the result, unless it is too large. Every operation on numbers and the
reading of a number literal end in this one rounding.
-/

namespace Parlance

/-- How many units make one: the unit is `2 ^ -1074`. -/
def unitsPerOne : Nat := Nat.pow 2 1074

/-- The first count of units that is too large for a magnitude, that of `2 ^ 1024`. -/
def unitsLimit : Nat := Nat.pow 2 2098

theorem unitsLimit_pos : 0 < unitsLimit := by
  unfold unitsLimit
  generalize 2098 = exponent
  exact Nat.two_pow_pos exponent

/-- How many bits of a count of units lie below its 53 leading ones. -/
def spareBits (units : Nat) : Nat := units.log2 - 52

/-- A quotient rounded to the nearest natural number, a half going to the even one. -/
def roundDiv (numerator denominator : Nat) : Nat :=
  let quotient := numerator / denominator
  let twice := 2 * (numerator % denominator)
  if twice < denominator ∨ (twice = denominator ∧ quotient % 2 = 0) then quotient
  else quotient + 1

/-- A quotient rounded to 53 significant bits, a half going to the even neighbour. -/
def nearestUnits (numerator denominator : Nat) : Nat :=
  let step := Nat.pow 2 (spareBits (numerator / denominator))
  roundDiv numerator (denominator * step) * step

/-! ## The rounding leaves 53 bits -/

/-- Rounding goes up by at most one. -/
theorem roundDiv_le (numerator denominator : Nat) :
    roundDiv numerator denominator ≤ numerator / denominator + 1 := by
  unfold roundDiv
  dsimp only
  split <;> omega

/-- A count of units shifted down by its spare bits has at most 53 bits. -/
theorem div_spareBits_lt (units : Nat) : units / Nat.pow 2 (spareBits units) < Nat.pow 2 53 := by
  simp only [Nat.pow_eq]
  have below : units < 2 ^ (units.log2 + 1) := Nat.lt_log2_self
  rw [Nat.div_lt_iff_lt_mul (Nat.pow_pos (by decide)), ← Nat.pow_add]
  exact Nat.lt_of_lt_of_le below (Nat.pow_le_pow_right (by decide) (by unfold spareBits; omega))

/-- A multiple of a power of two by at most 53 bits, `2 ^ 53` included, has no spare bits set. -/
theorem mul_pow_mod_spareBits {significand shift : Nat} (small : significand ≤ Nat.pow 2 53) :
    significand * Nat.pow 2 shift % Nat.pow 2 (spareBits (significand * Nat.pow 2 shift)) = 0 := by
  simp only [Nat.pow_eq] at small ⊢
  rcases Nat.lt_or_eq_of_le small with less | rfl
  · have below : significand * 2 ^ shift < 2 ^ (53 + shift) := by
      rw [Nat.pow_add]
      exact Nat.mul_lt_mul_of_pos_right less (Nat.pow_pos (by decide))
    have few : spareBits (significand * 2 ^ shift) ≤ shift := by
      unfold spareBits
      by_cases zero : significand * 2 ^ shift = 0
      · simp [zero]
      · have := (Nat.log2_lt zero).2 below
        omega
    exact Nat.mod_eq_zero_of_dvd (Nat.dvd_mul_left_of_dvd (Nat.pow_dvd_pow 2 few) _)
  · rw [← Nat.pow_add]
    refine Nat.mod_eq_zero_of_dvd (Nat.pow_dvd_pow 2 ?_)
    unfold spareBits
    rw [Nat.log2_two_pow]
    omega

theorem nearestUnits_mod_spareBits (numerator denominator : Nat) :
    nearestUnits numerator denominator %
      Nat.pow 2 (spareBits (nearestUnits numerator denominator)) = 0 := by
  refine mul_pow_mod_spareBits (Nat.le_trans (roundDiv_le _ _) ?_)
  rw [← Nat.div_div_eq_div_mul]
  exact div_spareBits_lt _

/-! ## Magnitudes -/

/-- The magnitude of a finite number. -/
structure Magnitude where
  /-- How many units of `2 ^ -1074` it is. -/
  units : Nat
  /-- It has at most 53 significant bits. -/
  short : units % Nat.pow 2 (spareBits units) = 0
  /-- It is below `2 ^ 1024`. -/
  bounded : units < unitsLimit
deriving DecidableEq

namespace Magnitude

/-- The magnitude of zero. -/
def zero : Magnitude := ⟨0, rfl, unitsLimit_pos⟩

/-- The magnitude nearest to a quotient of units, if that is not too large. -/
def round? (numerator denominator : Nat) : Option Magnitude :=
  if fits : nearestUnits numerator denominator < unitsLimit then
    some ⟨nearestUnits numerator denominator, nearestUnits_mod_spareBits _ _, fits⟩
  else none

/-- The leading 53 bits of a magnitude, as a natural number. -/
def significand (magnitude : Magnitude) : Nat :=
  magnitude.units >>> spareBits magnitude.units

end Magnitude

end Parlance
