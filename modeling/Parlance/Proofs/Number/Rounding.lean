import Mathlib.Tactic.Ring
import Parlance.Number

/-!
# What rounding does

`roundDiv` gives the whole number nearest to a quotient and, half way between two, the even one. Both
are said without division by `RoundsTo`, and there is one such number (`roundDiv_eq_iff`).

`nearestUnits` does so on a grid that depends on the quotient: below `2 ^ 53` units on whole units, above
on the multiples that leave 53 significant bits. Two things are known of it. No count of units with 53
bits is nearer to the quotient (`nearestUnits_nearest`), and a count of units is given exactly for the
quotients between the midpoints to its two neighbours (`nearestUnits_eq_iff`). The lower neighbour of a
power of two is on the finer grid, so its midpoint is only half as far.
-/

namespace Parlance

/-! ## Whole numbers -/

/-- A whole number is nearest to a quotient, and even if another one is as near. -/
structure RoundsTo (numerator denominator c : Nat) : Prop where
  below : 2 * (c * denominator) ≤ 2 * numerator + denominator
  above : 2 * numerator ≤ 2 * (c * denominator) + denominator
  even : 2 * (c * denominator) = 2 * numerator + denominator ∨
    2 * numerator = 2 * (c * denominator) + denominator → c % 2 = 0

variable {numerator denominator : Nat}

/-- Division with rounding rounds. -/
theorem roundsTo_roundDiv (h : 0 < denominator) :
    RoundsTo numerator denominator (roundDiv numerator denominator) := by
  have hdivision := Nat.div_add_mod' numerator denominator
  have hremainder := Nat.mod_lt numerator h
  unfold roundDiv
  dsimp only
  generalize numerator / denominator = quotient at hdivision ⊢
  generalize numerator % denominator = remainder at hdivision hremainder ⊢
  have hnext := Nat.add_one_mul quotient denominator
  split
  · constructor <;> omega
  · constructor <;> omega

/-- There is one number to round to, since ties are broken. -/
theorem RoundsTo.unique {c d : Nat} (h : 0 < denominator) (hc : RoundsTo numerator denominator c)
    (hd : RoundsTo numerator denominator d) : c = d := by
  -- Two such numbers are neighbours, both half way, so both even.
  have hordered : ∀ {a b : Nat}, RoundsTo numerator denominator a →
      RoundsTo numerator denominator b → ¬ a < b := by
    intro a b ha hb hlt
    have hnext : (a + 1) * denominator ≤ b * denominator := Nat.mul_le_mul_right _ hlt
    have hsucc := Nat.add_one_mul a denominator
    have habove := ha.above
    have hbelow := hb.below
    have haeven := ha.even (by omega)
    have hbeven := hb.even (by omega)
    have hproducts : (a + 1) * denominator = b * denominator := by omega
    have heq := Nat.eq_of_mul_eq_mul_right h hproducts
    omega
  have hcd := hordered hc hd
  have hdc := hordered hd hc
  omega

theorem roundDiv_eq_iff {c : Nat} (h : 0 < denominator) :
    roundDiv numerator denominator = c ↔ RoundsTo numerator denominator c := by
  constructor
  · rintro rfl
    exact roundsTo_roundDiv h
  · exact (roundsTo_roundDiv h).unique h

/-- No whole number is nearer to the quotient. -/
theorem RoundsTo.nearest {c : Nat} (h : RoundsTo numerator denominator c) (d : Nat) :
    (c * denominator - numerator : Int).natAbs ≤ (d * denominator - numerator : Int).natAbs := by
  have hbelow := h.below
  have habove := h.above
  rcases Nat.lt_trichotomy c d with hlt | rfl | hlt
  · have hnext : (c + 1) * denominator ≤ d * denominator := Nat.mul_le_mul_right _ hlt
    have hsucc := Nat.add_one_mul c denominator
    omega
  · exact Nat.le_refl _
  · have hnext : (d + 1) * denominator ≤ c * denominator := Nat.mul_le_mul_right _ hlt
    have hsucc := Nat.add_one_mul d denominator
    omega

/-- A common factor does not matter. -/
theorem roundDiv_mul_right (numerator denominator : Nat) {k : Nat} (hk : 0 < k) :
    roundDiv (numerator * k) (denominator * k) = roundDiv numerator denominator := by
  unfold roundDiv
  dsimp only
  rw [Nat.mul_div_mul_right _ _ hk, Nat.mul_mod_mul_right]
  have hless : 2 * (numerator % denominator * k) < denominator * k ↔
      2 * (numerator % denominator) < denominator := by
    rw [← Nat.mul_assoc]
    exact Nat.mul_lt_mul_right hk
  have hequal : 2 * (numerator % denominator * k) = denominator * k ↔
      2 * (numerator % denominator) = denominator := by
    rw [← Nat.mul_assoc]
    exact Nat.mul_left_inj (Nat.ne_of_gt hk)
  simp only [hless, hequal]

/-! ## The grid of a count of units -/

/-- Without the spare bits, at most fifty-three are left. -/
theorem lt_of_spareBits (units : Nat) : units < 2 ^ (53 + spareBits units) := by
  have hbelow : units < 2 ^ (units.log2 + 1) := Nat.lt_log2_self
  refine Nat.lt_of_lt_of_le hbelow (Nat.pow_le_pow_right (by decide) ?_)
  unfold spareBits
  omega

/-- Where there are spare bits, no fewer than fifty-three are left. -/
theorem le_of_spareBits {units : Nat} (h : 0 < spareBits units) :
    2 ^ (52 + spareBits units) ≤ units := by
  have hlog : 52 + spareBits units = units.log2 := by
    unfold spareBits at h ⊢
    omega
  rw [hlog]
  refine Nat.log2_self_le ?_
  rintro rfl
  exact absurd h (by decide)

/-- A quotient is rounded to multiples of `2 ^ k`: that leaves 53 bits of it, or `k` is zero. -/
structure OnGrid (numerator denominator k : Nat) : Prop where
  high : numerator < denominator * 2 ^ (53 + k)
  low : k = 0 ∨ denominator * 2 ^ (52 + k) ≤ numerator

/-- The grid of a quotient is found from its whole part. -/
theorem onGrid_spareBits (h : 0 < denominator) :
    OnGrid numerator denominator (spareBits (numerator / denominator)) where
  high := by
    rw [Nat.mul_comm, ← Nat.div_lt_iff_lt_mul h]
    exact lt_of_spareBits _
  low := by
    by_cases hzero : spareBits (numerator / denominator) = 0
    · exact .inl hzero
    · rw [Nat.mul_comm, ← Nat.le_div_iff_mul_le h]
      exact .inr (le_of_spareBits (Nat.pos_of_ne_zero hzero))

/-- A quotient has one grid. -/
theorem OnGrid.unique {j k : Nat} (hj : OnGrid numerator denominator j)
    (hk : OnGrid numerator denominator k) : j = k := by
  have hordered : ∀ {a b : Nat}, OnGrid numerator denominator a →
      OnGrid numerator denominator b → ¬ a < b := by
    intro a b ha hb hlt
    have hlow : denominator * 2 ^ (52 + b) ≤ numerator := hb.low.resolve_left (by omega)
    have hpow : 2 ^ (53 + a) ≤ 2 ^ (52 + b) := Nat.pow_le_pow_right (by decide) (by omega)
    have hle := Nat.mul_le_mul_left denominator hpow
    have hhigh := ha.high
    omega
  have hjk := hordered hj hk
  have hkj := hordered hk hj
  omega

/-- What rounding gives: a multiple of the step of the quotient's grid, the nearest one. -/
theorem nearestUnits_eq {k c : Nat} (h : 0 < denominator) (hgrid : OnGrid numerator denominator k)
    (hc : RoundsTo numerator (denominator * 2 ^ k) c) :
    nearestUnits numerator denominator = c * 2 ^ k := by
  have hk : spareBits (numerator / denominator) = k := (onGrid_spareBits h).unique hgrid
  have hstep : 0 < denominator * 2 ^ k := Nat.mul_pos h (Nat.two_pow_pos k)
  unfold nearestUnits
  simp only [Nat.pow_eq]
  rw [hk, (roundDiv_eq_iff hstep).mpr hc]

/-- The nearest units lie on the grid of the quotient. -/
theorem exists_of_nearestUnits (numerator : Nat) (h : 0 < denominator) :
    ∃ k c, OnGrid numerator denominator k ∧ RoundsTo numerator (denominator * 2 ^ k) c ∧
      nearestUnits numerator denominator = c * 2 ^ k := by
  have hstep : 0 < denominator * 2 ^ spareBits (numerator / denominator) :=
    Nat.mul_pos h (Nat.two_pow_pos _)
  exact ⟨_, _, onGrid_spareBits h, roundsTo_roundDiv hstep, rfl⟩

/-- A common factor does not matter. -/
theorem nearestUnits_mul_right (numerator denominator : Nat) {k : Nat} (hk : 0 < k) :
    nearestUnits (numerator * k) (denominator * k) = nearestUnits numerator denominator := by
  unfold nearestUnits
  dsimp only
  rw [Nat.mul_div_mul_right _ _ hk, Nat.mul_right_comm denominator k, roundDiv_mul_right _ _ hk]

@[simp] theorem nearestUnits_zero (denominator : Nat) : nearestUnits 0 denominator = 0 := by
  simp [nearestUnits, roundDiv]

/-- No count of units with 53 significant bits is nearer to a quotient than its rounding. -/
theorem nearestUnits_nearest {units : Nat} (h : 0 < denominator)
    (hshort : units % 2 ^ spareBits units = 0) :
    (nearestUnits numerator denominator * denominator - numerator : Int).natAbs ≤
      (units * denominator - numerator : Int).natAbs := by
  obtain ⟨k, c, hgrid, hc, hunits⟩ := exists_of_nearestUnits numerator h
  have hmultiple : ∀ d : Nat, (d * 2 ^ k) * denominator = d * (denominator * 2 ^ k) := by
    intro d
    ring
  have hnearest : ∀ d : Nat,
      (nearestUnits numerator denominator * denominator - numerator : Int).natAbs ≤
      ((d * 2 ^ k : Nat) * denominator - numerator : Int).natAbs := by
    intro d
    have hd := hc.nearest d
    rw [← Nat.cast_mul, ← Nat.cast_mul, ← hmultiple, ← hmultiple, ← hunits] at hd
    exact_mod_cast hd
  by_cases hdvd : 2 ^ k ∣ units
  · obtain ⟨d, rfl⟩ := hdvd
    rw [Nat.mul_comm]
    exact hnearest d
  · -- The count lies below the grid, so the first point of the grid is between it and the quotient.
    have hspare : spareBits units < k := by
      by_contra hge
      exact hdvd ((Nat.pow_dvd_pow 2 (Nat.le_of_not_lt hge)).trans (Nat.dvd_of_mod_eq_zero hshort))
    have hbelow : units ≤ 2 ^ 52 * 2 ^ k := by
      rw [← Nat.pow_add]
      refine (lt_of_spareBits units).le.trans (Nat.pow_le_pow_right (by decide) ?_)
      omega
    have hlow : denominator * 2 ^ (52 + k) ≤ numerator := hgrid.low.resolve_left (by omega)
    have hfirst := hnearest (2 ^ 52)
    have hunits := Nat.mul_le_mul_right denominator hbelow
    have hproduct : denominator * 2 ^ (52 + k) = 2 ^ 52 * 2 ^ k * denominator := by ring
    refine hfirst.trans ?_
    rw [← Nat.cast_mul, ← Nat.cast_mul]
    omega

/-! ## The quotients that are rounded to one count -/

/-- A quotient lies between the midpoints to the neighbours of `s * 2 ^ k`, or on one of them if `s` is
even. The neighbours are a step apart, but below a power of two they are half a step apart. -/
structure Between (numerator denominator s k : Nat) : Prop where
  below : 4 * (s * (denominator * 2 ^ k)) ≤
    4 * numerator + (if k ≠ 0 ∧ s = 2 ^ 52 then 1 else 2) * (denominator * 2 ^ k)
  above : 4 * numerator ≤ 4 * (s * (denominator * 2 ^ k)) + 2 * (denominator * 2 ^ k)
  even : 4 * (s * (denominator * 2 ^ k)) =
      4 * numerator + (if k ≠ 0 ∧ s = 2 ^ 52 then 1 else 2) * (denominator * 2 ^ k) ∨
    4 * numerator = 4 * (s * (denominator * 2 ^ k)) + 2 * (denominator * 2 ^ k) → s % 2 = 0

/-- A multiple of `2 ^ k` by fewer than 54 bits is given where it is the nearest one, if the quotient is
not below the grid. -/
theorem nearestUnits_of_roundsTo {k s : Nat} (h : 0 < denominator) (hs : s < 2 ^ 53)
    (hlow : k = 0 ∨ denominator * 2 ^ (52 + k) ≤ numerator)
    (hround : RoundsTo numerator (denominator * 2 ^ k) s) :
    nearestUnits numerator denominator = s * 2 ^ k := by
  refine nearestUnits_eq h ⟨?_, hlow⟩ hround
  have hstep : 0 < denominator * 2 ^ k := Nat.mul_pos h (Nat.two_pow_pos k)
  have hnext : (s + 1) * (denominator * 2 ^ k) ≤ 2 ^ 53 * (denominator * 2 ^ k) :=
    Nat.mul_le_mul_right _ hs
  have hsucc := Nat.add_one_mul s (denominator * 2 ^ k)
  have hpower : denominator * 2 ^ (53 + k) = 2 ^ 53 * (denominator * 2 ^ k) := by ring
  have habove := hround.above
  omega

/-- A power of two is given for the quotients right below it, up to half a step of the grid there. -/
theorem nearestUnits_below_power {j : Nat} (h : 0 < denominator)
    (hlt : numerator < 2 ^ 53 * (denominator * 2 ^ j))
    (hbelow : 2 * (2 ^ 53 * (denominator * 2 ^ j)) ≤ 2 * numerator + denominator * 2 ^ j) :
    nearestUnits numerator denominator = 2 ^ 53 * 2 ^ j := by
  have hpower : denominator * 2 ^ (53 + j) = 2 ^ 53 * (denominator * 2 ^ j) := by ring
  have hhalf : denominator * 2 ^ (52 + j) = 2 ^ 52 * (denominator * 2 ^ j) := by ring
  refine nearestUnits_eq h ⟨by omega, .inr (by omega)⟩ ⟨hbelow, by omega, by omega⟩

/-- What lies between the midpoints around a number is rounded to it. -/
theorem Between.nearestUnits {s k : Nat} (h : 0 < denominator) (hs : s < 2 ^ 53)
    (hk : k = 0 ∨ 2 ^ 52 ≤ s) (hbetween : Between numerator denominator s k) :
    nearestUnits numerator denominator = s * 2 ^ k := by
  obtain ⟨hbelow, habove, heven⟩ := hbetween
  have hstep : 0 < denominator * 2 ^ k := Nat.mul_pos h (Nat.two_pow_pos k)
  have hfirst : denominator * 2 ^ (52 + k) = 2 ^ 52 * (denominator * 2 ^ k) := by ring
  by_cases hpower : k ≠ 0 ∧ s = 2 ^ 52
  · rw [if_pos hpower] at hbelow heven
    obtain ⟨hk, rfl⟩ := hpower
    by_cases hside : numerator < 2 ^ 52 * (denominator * 2 ^ k)
    · -- Here the quotient is on the finer grid below the power of two.
      obtain ⟨j, rfl⟩ : ∃ j, k = j + 1 := ⟨k - 1, by omega⟩
      have hfine : denominator * 2 ^ (j + 1) = 2 * (denominator * 2 ^ j) := by ring
      rw [nearestUnits_below_power (j := j) h (by omega) (by omega)]
      ring
    · exact nearestUnits_of_roundsTo h hs (.inr (by omega)) ⟨by omega, by omega, by omega⟩
  · rw [if_neg hpower] at hbelow heven
    refine nearestUnits_of_roundsTo h hs ?_ ⟨by omega, by omega, by omega⟩
    by_cases hzero : k = 0
    · exact .inl hzero
    · have hnext : (2 ^ 52 + 1) * (denominator * 2 ^ k) ≤ s * (denominator * 2 ^ k) :=
        Nat.mul_le_mul_right _ (by omega)
      exact .inr (by omega)

/-- A count is on the grid of its own step. -/
theorem onGrid_mul {s k : Nat} (hs : s < 2 ^ 53) (hk : k = 0 ∨ 2 ^ 52 ≤ s) :
    OnGrid (s * 2 ^ k) 1 k where
  high := by
    rw [Nat.one_mul, Nat.pow_add]
    exact Nat.mul_lt_mul_of_pos_right hs (Nat.two_pow_pos k)
  low := by
    rw [Nat.one_mul, Nat.pow_add]
    exact hk.imp_right (Nat.mul_le_mul_right (2 ^ k))

/-- What is rounded to a number lies between the midpoints around it. -/
theorem between_of_nearestUnits {s k : Nat} (h : 0 < denominator) (hs : s < 2 ^ 53)
    (hk : k = 0 ∨ 2 ^ 52 ≤ s) (hunits : nearestUnits numerator denominator = s * 2 ^ k) :
    Between numerator denominator s k := by
  obtain ⟨j, c, ⟨hhigh, hlow⟩, ⟨hbelow, habove, heven⟩, hc⟩ := exists_of_nearestUnits numerator h
  rw [hunits] at hc
  have hstep : 0 < denominator * 2 ^ j := Nat.mul_pos h (Nat.two_pow_pos j)
  have hfirst : denominator * 2 ^ (52 + j) = 2 ^ 52 * (denominator * 2 ^ j) := by ring
  have hlast : denominator * 2 ^ (53 + j) = 2 ^ 53 * (denominator * 2 ^ j) := by ring
  by_cases hsmall : c < 2 ^ 53
  · have hleast : j = 0 ∨ 2 ^ 52 ≤ c := by
      refine hlow.imp_right fun hlow => ?_
      by_contra hless
      have hnext : (c + 1) * (denominator * 2 ^ j) ≤ 2 ^ 52 * (denominator * 2 ^ j) :=
        Nat.mul_le_mul_right _ (by omega)
      have hsucc := Nat.add_one_mul c (denominator * 2 ^ j)
      omega
    obtain rfl : k = j := (hc ▸ onGrid_mul hs hk).unique (onGrid_mul hsmall hleast)
    obtain rfl : s = c := Nat.eq_of_mul_eq_mul_right (Nat.two_pow_pos k) hc
    by_cases hpower : k ≠ 0 ∧ s = 2 ^ 52
    · have hreached := hlow.resolve_left hpower.1
      have hcentre : s * (denominator * 2 ^ k) = 2 ^ 52 * (denominator * 2 ^ k) := by rw [hpower.2]
      constructor
      · omega
      · omega
      · rw [if_pos hpower]
        omega
    · constructor
      · rw [if_neg hpower]
        omega
      · omega
      · rw [if_neg hpower]
        omega
  · -- The quotient was rounded up to a power of two, which begins the next grid.
    obtain rfl : c = 2 ^ 53 := by
      by_contra hlarge
      have hnext : (2 ^ 53 + 1) * (denominator * 2 ^ j) ≤ c * (denominator * 2 ^ j) :=
        Nat.mul_le_mul_right _ (by omega)
      omega
    have hfine : denominator * 2 ^ (j + 1) = 2 * (denominator * 2 ^ j) := by ring
    have hpower : 2 ^ 53 * 2 ^ j = 2 ^ 52 * 2 ^ (j + 1) := by ring
    rw [hpower] at hc
    obtain rfl : k = j + 1 :=
      (hc ▸ onGrid_mul hs hk).unique (onGrid_mul (by decide) (.inr (Nat.le_refl _)))
    obtain rfl : s = 2 ^ 52 := Nat.eq_of_mul_eq_mul_right (Nat.two_pow_pos (j + 1)) hc
    constructor
    · rw [if_pos ⟨by omega, rfl⟩]
      omega
    · omega
    · exact fun _ => by decide

/-- The quotients that are rounded to a number are those between its midpoints. -/
theorem nearestUnits_eq_iff {s k : Nat} (h : 0 < denominator) (hs : s < 2 ^ 53)
    (hk : k = 0 ∨ 2 ^ 52 ≤ s) :
    nearestUnits numerator denominator = s * 2 ^ k ↔ Between numerator denominator s k :=
  ⟨between_of_nearestUnits h hs hk, Between.nearestUnits h hs hk⟩

/-- Nearer to the count from below, a quotient is still rounded to it. -/
theorem Between.of_le {s k nearer : Nat} (h : Between numerator denominator s k)
    (hpos : 0 < denominator) (hle : numerator ≤ nearer)
    (hcentre : nearer ≤ s * (denominator * 2 ^ k)) : Between nearer denominator s k := by
  have hstep : 0 < denominator * 2 ^ k := Nat.mul_pos hpos (Nat.two_pow_pos k)
  have hbelow := h.below
  exact ⟨by omega, by omega, fun htie => h.even (by omega)⟩

/-- Nearer to the count from above, a quotient is still rounded to it. -/
theorem Between.of_ge {s k nearer : Nat} (h : Between numerator denominator s k)
    (hpos : 0 < denominator) (hle : nearer ≤ numerator)
    (hcentre : s * (denominator * 2 ^ k) ≤ nearer) : Between nearer denominator s k := by
  have hstep : 0 < denominator * 2 ^ k := Nat.mul_pos hpos (Nat.two_pow_pos k)
  have hgap : 0 < (if k ≠ 0 ∧ s = 2 ^ 52 then 1 else 2) * (denominator * 2 ^ k) :=
    Nat.mul_pos (by split <;> decide) hstep
  have habove := h.above
  exact ⟨by omega, by omega, fun htie => h.even (by omega)⟩

end Parlance
