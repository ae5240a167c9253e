import Parlance.Number.Shortest
import Parlance.Proofs.Number.Rounding

/-!
# The shortest decimal is read back

`Magnitude.isReadFrom` compares a decimal with the midpoints between a magnitude and its neighbours.
That decides whether the decimal is rounded to the magnitude (`isReadFrom_iff`).

The search for the shortest decimal goes from coarse grids to fine ones. The finest one is fine enough
for every magnitude, so what is found is read back (`nearestUnits_shortest`). And nothing is missed: if
any point of a grid is read back, then one of the two that are tried is, because the points that are
read back lie side by side (`pow_dvd_shortest_iff`).
-/

namespace Parlance

theorem ten_pow_pos (places : Nat) : 0 < Nat.pow 10 places := Nat.pow_pos (by decide)

theorem ten_pow_add (places others : Nat) :
    Nat.pow 10 (places + others) = Nat.pow 10 places * Nat.pow 10 others :=
  Nat.pow_add 10 places others

theorem unitsPerOne_pos : 0 < unitsPerOne := by
  unfold unitsPerOne
  generalize 1074 = exponent
  exact Nat.two_pow_pos exponent

namespace Magnitude

variable {magnitude : Magnitude}

/-! ## The leading bits -/

/-- A magnitude is its significand on the grid of its spare bits. -/
theorem units_eq (magnitude : Magnitude) :
    magnitude.units = magnitude.significand * 2 ^ spareBits magnitude.units := by
  rw [significand, Nat.shiftRight_eq_div_pow]
  exact (Nat.div_mul_cancel (Nat.dvd_of_mod_eq_zero magnitude.short)).symm

/-- A significand has at most fifty-three bits. -/
theorem significand_lt (magnitude : Magnitude) : magnitude.significand < 2 ^ 53 := by
  have hlt := lt_of_spareBits magnitude.units
  rw [Nat.pow_add] at hlt
  rw [significand, Nat.shiftRight_eq_div_pow]
  exact Nat.div_lt_of_lt_mul (by rwa [Nat.mul_comm])

theorem le_significand (h : spareBits magnitude.units ≠ 0) : 2 ^ 52 ≤ magnitude.significand := by
  have hle := le_of_spareBits (Nat.pos_of_ne_zero h)
  rw [Nat.pow_add] at hle
  rw [significand, Nat.shiftRight_eq_div_pow]
  exact (Nat.le_div_iff_mul_le (Nat.two_pow_pos _)).mpr hle

/-! ## Reading back -/

/-- The gap below is half as wide where the grid becomes finer. -/
theorem gapBelow_eq (magnitude : Magnitude) :
    magnitude.gapBelow = (if spareBits magnitude.units ≠ 0 ∧ magnitude.significand = 2 ^ 52
      then 1 else 2) * 2 ^ spareBits magnitude.units := by
  unfold gapBelow gapAbove
  simp only [Nat.pow_eq]
  split
  · rw [Nat.one_mul]
  · rfl

/-- An odd magnitude is not zero, so its lower midpoint is not cut off. -/
theorem gapBelow_le (h : magnitude.significand % 2 ≠ 0) :
    magnitude.gapBelow ≤ 4 * magnitude.units := by
  have hone : 1 ≤ magnitude.significand := by omega
  have hstep := Nat.mul_le_mul_right (2 ^ spareBits magnitude.units) hone
  rw [← units_eq, Nat.one_mul] at hstep
  rw [gapBelow_eq]
  split <;> omega

/-- The midpoints that `isReadFrom` compares with are those of the magnitude. -/
theorem isReadFrom_iff_between {ticks : Nat} :
    magnitude.isReadFrom ticks = true ↔
      Between (ticks * unitsPerOne) (Nat.pow 10 tickPlaces) magnitude.significand
        (spareBits magnitude.units) := by
  unfold isReadFrom scaledTicks
  generalize Nat.pow 10 tickPlaces = denominator
  generalize ticks * unitsPerOne = numerator
  dsimp only
  have hcentre : magnitude.units * denominator =
      magnitude.significand * (denominator * 2 ^ spareBits magnitude.units) := by
    rw [Nat.mul_comm denominator, ← Nat.mul_assoc, ← units_eq]
  have habove : magnitude.gapAbove * denominator =
      2 * (denominator * 2 ^ spareBits magnitude.units) := by
    rw [Nat.mul_comm denominator, ← Nat.mul_assoc]
    rfl
  have hbelow : magnitude.gapBelow * denominator =
      (if spareBits magnitude.units ≠ 0 ∧ magnitude.significand = 2 ^ 52 then 1 else 2) *
        (denominator * 2 ^ spareBits magnitude.units) := by
    rw [Nat.mul_comm denominator, ← Nat.mul_assoc, ← gapBelow_eq]
  by_cases heven : magnitude.significand % 2 = 0
  · rw [if_pos heven, decide_eq_true_iff, hcentre, habove, hbelow]
    constructor
    · rintro ⟨hlow, hhigh⟩
      exact ⟨by omega, hhigh, fun _ => heven⟩
    · intro h
      have hlow := h.below
      exact ⟨by omega, h.above⟩
  · have hcut : magnitude.gapBelow * denominator ≤ 4 * (magnitude.units * denominator) := by
      rw [← Nat.mul_assoc]
      exact Nat.mul_le_mul_right denominator (gapBelow_le heven)
    rw [hcentre, hbelow] at hcut
    rw [if_neg heven, decide_eq_true_iff, hcentre, habove, hbelow]
    constructor
    · rintro ⟨hlow, hhigh⟩
      exact ⟨by omega, by omega, by omega⟩
    · intro h
      have hlow := h.below
      have hhigh := h.above
      have hneither := mt h.even heven
      omega

/-- A decimal passes the test exactly if it is rounded to the magnitude. -/
theorem isReadFrom_iff {ticks : Nat} :
    magnitude.isReadFrom ticks = true ↔
      nearestUnits (ticks * unitsPerOne) (Nat.pow 10 tickPlaces) = magnitude.units := by
  have hpos := ten_pow_pos tickPlaces
  have hleast : spareBits magnitude.units = 0 ∨ 2 ^ 52 ≤ magnitude.significand := by
    by_cases hzero : spareBits magnitude.units = 0
    · exact .inl hzero
    · exact .inr (le_significand hzero)
  rw [isReadFrom_iff_between, ← nearestUnits_eq_iff hpos magnitude.significand_lt hleast, ← units_eq]

theorem scaledTicks_eq (magnitude : Magnitude) :
    magnitude.scaledTicks =
      magnitude.significand * (Nat.pow 10 tickPlaces * 2 ^ spareBits magnitude.units) := by
  rw [Nat.mul_comm (Nat.pow 10 tickPlaces), ← Nat.mul_assoc, ← units_eq]
  rfl

/-- Of the decimals that are read back, those between one of them and the magnitude are too. -/
theorem isReadFrom_of_between {ticks nearer : Nat} (h : magnitude.isReadFrom ticks = true)
    (hnearer : ticks ≤ nearer ∧ nearer * unitsPerOne ≤ magnitude.scaledTicks ∨
      nearer ≤ ticks ∧ magnitude.scaledTicks ≤ nearer * unitsPerOne) :
    magnitude.isReadFrom nearer = true := by
  rw [isReadFrom_iff_between] at h ⊢
  rw [scaledTicks_eq] at hnearer
  rcases hnearer with ⟨hle, hcentre⟩ | ⟨hle, hcentre⟩
  · exact h.of_le (ten_pow_pos tickPlaces) (Nat.mul_le_mul_right unitsPerOne hle) hcentre
  · exact h.of_ge (ten_pow_pos tickPlaces) (Nat.mul_le_mul_right unitsPerOne hle) hcentre

/-! ## The search -/

/-- What is found on a grid is a point of it, and is read back. -/
theorem of_onGrid? {grid ticks : Nat} (h : magnitude.onGrid? grid = some ticks) :
    magnitude.isReadFrom ticks = true ∧ Nat.pow 10 grid ∣ ticks := by
  unfold onGrid? at h
  dsimp only at h
  generalize Nat.pow 10 grid = step at h ⊢
  have hlower : step ∣ magnitude.scaledTicks / (step * unitsPerOne) * step := Nat.dvd_mul_left _ _
  have hupper : step ∣ magnitude.scaledTicks / (step * unitsPerOne) * step + step :=
    Nat.dvd_add hlower (Nat.dvd_refl step)
  generalize magnitude.scaledTicks / (step * unitsPerOne) * step = lower at h hlower hupper
  split at h
  · rename_i hread
    split at h
    · rename_i hread'
      split at h <;> cases h
      · exact ⟨hread, hlower⟩
      · exact ⟨hread', hupper⟩
    · cases h
      exact ⟨hread, hlower⟩
  · split at h <;> cases h
    rename_i hread
    exact ⟨hread, hupper⟩

/-- If a point of a grid is read back, one is found. -/
theorem onGrid?_isSome {grid ticks : Nat} (hread : magnitude.isReadFrom ticks = true)
    (hticks : Nat.pow 10 grid ∣ ticks) : (magnitude.onGrid? grid).isSome = true := by
  obtain ⟨count, rfl⟩ := hticks
  have hstep : 0 < Nat.pow 10 grid * unitsPerOne := Nat.mul_pos (ten_pow_pos grid) unitsPerOne_pos
  unfold onGrid?
  dsimp only
  generalize Nat.pow 10 grid = step at hread hstep ⊢
  have hbelow := Nat.div_mul_le_self magnitude.scaledTicks (step * unitsPerOne)
  have habove := Nat.lt_div_mul_add hstep (a := magnitude.scaledTicks)
  generalize magnitude.scaledTicks / (step * unitsPerOne) = quotient at hbelow habove ⊢
  rw [← Nat.mul_assoc] at hbelow habove
  -- The point lies on one side of the magnitude, and one of the two tried lies between.
  have hone : magnitude.isReadFrom (quotient * step) = true ∨
      magnitude.isReadFrom (quotient * step + step) = true := by
    by_cases hcount : count ≤ quotient
    · left
      refine isReadFrom_of_between hread (.inl ⟨?_, hbelow⟩)
      rw [Nat.mul_comm step]
      exact Nat.mul_le_mul_right step hcount
    · right
      refine isReadFrom_of_between hread (.inr ⟨?_, ?_⟩)
      · rw [Nat.mul_comm step, ← Nat.add_one_mul]
        exact Nat.mul_le_mul_right step (Nat.lt_of_not_le hcount)
      · rw [Nat.add_mul]
        exact Nat.le_of_lt habove
  by_cases hlower : magnitude.isReadFrom (quotient * step) = true
  · rw [if_pos hlower]
    split
    · split <;> rfl
    · rfl
  · rw [if_neg hlower, if_pos (hone.resolve_left hlower)]
    rfl

/-- On the finest grid there is always a hit: its step is below a quarter of a unit. -/
theorem onGrid?_zero_isSome (magnitude : Magnitude) : (magnitude.onGrid? 0).isSome = true := by
  have hfine : 4 * unitsPerOne < Nat.pow 10 tickPlaces := by decide +kernel
  have hbelow := Nat.div_mul_le_self magnitude.scaledTicks unitsPerOne
  have habove := Nat.lt_div_mul_add unitsPerOne_pos (a := magnitude.scaledTicks)
  generalize magnitude.scaledTicks / unitsPerOne = ticks at hbelow habove
  suffices hread : magnitude.isReadFrom ticks = true from onGrid?_isSome hread (Nat.one_dvd ticks)
  rw [isReadFrom_iff_between]
  rw [scaledTicks_eq] at hbelow habove
  generalize Nat.pow 10 tickPlaces = denominator at *
  have hstep : denominator ≤ denominator * 2 ^ spareBits magnitude.units :=
    Nat.le_mul_of_pos_right denominator (Nat.two_pow_pos _)
  have hgap : denominator * 2 ^ spareBits magnitude.units ≤
      (if spareBits magnitude.units ≠ 0 ∧ magnitude.significand = 2 ^ 52 then 1 else 2) *
        (denominator * 2 ^ spareBits magnitude.units) :=
    Nat.le_mul_of_pos_left _ (by split <;> decide)
  constructor <;> omega

/-- Whatever grid is tried first, what is found is read back. -/
theorem isReadFrom_shortestFrom (magnitude : Magnitude) (grid : Nat) :
    magnitude.isReadFrom (magnitude.shortestFrom grid) = true := by
  induction grid with
  | zero =>
    obtain ⟨ticks, hticks⟩ := Option.isSome_iff_exists.mp magnitude.onGrid?_zero_isSome
    rw [shortestFrom, hticks]
    exact (of_onGrid? hticks).1
  | succ grid ih =>
    rw [shortestFrom]
    cases hticks : magnitude.onGrid? (grid + 1) with
    | none => exact ih
    | some ticks => exact (of_onGrid? hticks).1

/-- If a grid has a point that is read back, the search ends on it, or on a coarser one. -/
theorem pow_dvd_shortestFrom {coarse grid ticks : Nat} (hgrid : coarse ≤ grid)
    (hread : magnitude.isReadFrom ticks = true) (hticks : Nat.pow 10 coarse ∣ ticks) :
    Nat.pow 10 coarse ∣ magnitude.shortestFrom grid := by
  have hfound : ∀ {g hit : Nat}, coarse ≤ g → magnitude.onGrid? g = some hit →
      Nat.pow 10 coarse ∣ hit := by
    intro g hit hle hhit
    exact (Nat.pow_dvd_pow 10 hle).trans (of_onGrid? hhit).2
  induction grid with
  | zero =>
    obtain ⟨hit, hhit⟩ := Option.isSome_iff_exists.mp magnitude.onGrid?_zero_isSome
    rw [shortestFrom, hhit]
    exact hfound hgrid hhit
  | succ grid ih =>
    rw [shortestFrom]
    cases hhit : magnitude.onGrid? (grid + 1) with
    | some hit => exact hfound hgrid hhit
    | none =>
      refine ih (Nat.le_of_lt_succ (Nat.lt_of_le_of_ne hgrid ?_))
      rintro rfl
      have hsome := onGrid?_isSome hread hticks
      rw [hhit] at hsome
      cases hsome

/-! ## The shortest decimal -/

/-- The shortest decimal of a magnitude is read back as it. -/
theorem isReadFrom_shortest (magnitude : Magnitude) :
    magnitude.isReadFrom magnitude.shortest = true := by
  unfold shortest
  by_cases hzero : magnitude.units = 0
  · rw [if_pos hzero, isReadFrom_iff, Nat.zero_mul, nearestUnits_zero, hzero]
  · rw [if_neg hzero]
    exact magnitude.isReadFrom_shortestFrom _

/-- The shortest decimal is read back as the magnitude. -/
theorem nearestUnits_shortest (magnitude : Magnitude) :
    nearestUnits (magnitude.shortest * unitsPerOne) (Nat.pow 10 tickPlaces) = magnitude.units :=
  isReadFrom_iff.mp magnitude.isReadFrom_shortest

/-- The shortest decimal has no more places than any decimal that is read back as the magnitude. -/
theorem pow_dvd_shortest_iff {grid : Nat} (hgrid : grid ≤ tickPlaces) :
    Nat.pow 10 grid ∣ magnitude.shortest ↔
      ∃ ticks, Nat.pow 10 grid ∣ ticks ∧
        nearestUnits (ticks * unitsPerOne) (Nat.pow 10 tickPlaces) = magnitude.units := by
  constructor
  · exact fun h => ⟨magnitude.shortest, h, magnitude.nearestUnits_shortest⟩
  · rintro ⟨ticks, hticks, hread⟩
    unfold shortest
    by_cases hzero : magnitude.units = 0
    · rw [if_pos hzero]
      exact Nat.dvd_zero _
    · rw [if_neg hzero]
      exact pow_dvd_shortestFrom (hgrid.trans (Nat.le_add_right _ _)) (isReadFrom_iff.mpr hread) hticks

end Magnitude

end Parlance
