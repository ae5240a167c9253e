import Mathlib.Algebra.Order.Field.Basic
import Mathlib.Algebra.Order.Field.Rat
import Mathlib.Tactic.NormNum
import Mathlib.Tactic.Ring
import Parlance.Proofs.Number.Formatting
import Parlance.Proofs.Number.Numerals
import Parlance.Proofs.Program.Reader
import Parlance.Proofs.Token.Spelling
import Parlance.Value

/-!
# Displayed numbers read back

The text of a finite number is a number literal, and the language reads it as a number that is equal to
the first one, as far as the language tells numbers apart (`display_reads_back`).

Two roundings lie between the numbers. Where the shortest decimal has at most sixteen places it is what
is written, and it is read back exactly; `Magnitude.pow_dvd_shortest_iff` says for which numbers this is so.
Otherwise the number was rounded to sixteen places, which moves it by at most half of `10 ^ -16`, and
reading rounds to a number that is no further from the decimal than the first one is. So the two are at
most `10 ^ -16` apart, which is less than the `2 ^ -52` that count as nothing. Nothing overflows, because
the largest magnitude keeps more distance than that from `2 ^ 1024`.
-/

namespace Parlance

/-! ## How far apart the numbers are -/

/-- Below a power of two, a count of 53 bits keeps the distance of its last bit. -/
theorem add_le_of_short {units k : Nat} (hshort : units % 2 ^ spareBits units = 0)
    (hlt : units < 2 ^ (53 + k)) : units + 2 ^ k ≤ 2 ^ (53 + k) := by
  by_cases hspare : k ≤ spareBits units
  · have hunits : 2 ^ k ∣ units := (Nat.pow_dvd_pow 2 hspare).trans (Nat.dvd_of_mod_eq_zero hshort)
    obtain ⟨count, rfl⟩ := hunits
    rw [Nat.pow_add, Nat.mul_comm (2 ^ 53)] at hlt ⊢
    have hcount := Nat.lt_of_mul_lt_mul_left hlt
    rw [← Nat.mul_add_one]
    exact Nat.mul_le_mul_left _ hcount
  · have hbelow : units < 2 ^ (52 + k) :=
      (lt_of_spareBits units).trans_le (Nat.pow_le_pow_right (by decide) (by omega))
    have hstep : 2 ^ k ≤ 2 ^ (52 + k) := Nat.pow_le_pow_right (by decide) (by omega)
    have hdouble : 2 ^ (53 + k) = 2 * 2 ^ (52 + k) := by ring
    omega

namespace Magnitude

variable (magnitude : Magnitude)

/-- The units of what is read where a magnitude was displayed. -/
def readUnits : Nat := nearestUnits (magnitude.displayed * unitsPerOne) (Nat.pow 10 displayPlaces)

/-- A shortest decimal with few places is displayed as it is, and read back exactly. -/
theorem readUnits_of_dvd (h : Nat.pow 10 (tickPlaces - displayPlaces) ∣ magnitude.shortest) :
    magnitude.readUnits = magnitude.units := by
  have hparts : magnitude.displayed * Nat.pow 10 (tickPlaces - displayPlaces) =
      magnitude.shortest := by
    unfold displayed
    dsimp only
    rw [if_pos (Nat.mod_eq_zero_of_dvd h), Nat.div_mul_cancel h]
  have hsum : displayPlaces + (tickPlaces - displayPlaces) = tickPlaces := by decide
  have hplaces := ten_pow_add displayPlaces (tickPlaces - displayPlaces)
  rw [hsum] at hplaces
  have hread := magnitude.nearestUnits_shortest
  rw [← hparts, hplaces, Nat.mul_right_comm,
    nearestUnits_mul_right _ _ (ten_pow_pos (tickPlaces - displayPlaces))] at hread
  exact hread

/-- What is read is at most `2 ^ -52` from what was displayed. -/
theorem readUnits_near :
    (magnitude.readUnits - magnitude.units : Int).natAbs ≤ Number.negligibleUnits := by
  by_cases h : Nat.pow 10 (tickPlaces - displayPlaces) ∣ magnitude.shortest
  · rw [magnitude.readUnits_of_dvd h, Int.sub_self]
    exact Nat.zero_le _
  have hparts : RoundsTo (magnitude.units * Nat.pow 10 displayPlaces) unitsPerOne
      magnitude.displayed := by
    unfold displayed
    dsimp only
    rw [if_neg fun hmod => h (Nat.dvd_of_mod_eq_zero hmod)]
    exact roundsTo_roundDiv unitsPerOne_pos
  -- The decimal is at most half a place from the magnitude, and what is read is no further from it.
  have hnearest : (magnitude.readUnits * Nat.pow 10 displayPlaces -
      (magnitude.displayed * unitsPerOne : Nat) : Int).natAbs ≤
        (magnitude.units * Nat.pow 10 displayPlaces -
          (magnitude.displayed * unitsPerOne : Nat) : Int).natAbs :=
    nearestUnits_nearest (ten_pow_pos displayPlaces) magnitude.short
  have hapart : ((magnitude.readUnits - magnitude.units) * Nat.pow 10 displayPlaces : Int).natAbs ≤
      unitsPerOne := by
    have hbelow := hparts.below
    have habove := hparts.above
    rw [Int.sub_mul]
    omega
  have hunit : unitsPerOne ≤ Number.negligibleUnits * Nat.pow 10 displayPlaces := by decide +kernel
  rw [Int.natAbs_mul, Int.natAbs_natCast] at hapart
  exact Nat.le_of_mul_le_mul_right (hapart.trans hunit) (ten_pow_pos displayPlaces)

/-- What is read is not too large. -/
theorem readUnits_lt : magnitude.readUnits < unitsLimit := by
  have hnear := magnitude.readUnits_near
  obtain ⟨k, hk⟩ : ∃ k, 53 + k = 2098 := ⟨2045, rfl⟩
  have hlimit : unitsLimit = 2 ^ (53 + k) := by
    unfold unitsLimit
    generalize 2098 = exponent at hk ⊢
    rw [hk]
    rfl
  have hbounded := magnitude.bounded
  rw [hlimit] at hbounded ⊢
  have hroom := add_le_of_short magnitude.short hbounded
  have hsmall : Number.negligibleUnits < 2 ^ k := by
    have hexponent : 1022 < k := by omega
    unfold Number.negligibleUnits
    generalize 1022 = exponent at hexponent ⊢
    exact Nat.pow_lt_pow_right (by decide) hexponent
  omega

/-- The magnitude that is read where a magnitude was displayed. -/
def readBack : Magnitude := ⟨magnitude.readUnits, nearestUnits_mod_spareBits _ _, magnitude.readUnits_lt⟩

end Magnitude

namespace Number

/-- A magnitude with a sign as an exact number. -/
def exactValue (negative : Bool) (magnitude : Magnitude) : ℚ :=
  signedUnits negative magnitude / unitsPerOne

theorem signedUnits_neg (negative : Bool) (magnitude : Magnitude) :
    signedUnits (!negative) magnitude = -signedUnits negative magnitude := by
  cases negative with
  | false => rfl
  | true => exact (Int.neg_neg _).symm

/-- Rounding goes nowhere beyond a power of two. -/
theorem nearestUnits_le_negligible {units : Nat} (h : units ≤ negligibleUnits) :
    nearestUnits units 1 ≤ negligibleUnits := by
  have hshort : negligibleUnits % 2 ^ spareBits negligibleUnits = 0 := by decide +kernel
  have hnearest : (nearestUnits units 1 * (1 : Nat) - units : Int).natAbs ≤
      (negligibleUnits * (1 : Nat) - units : Int).natAbs := nearestUnits_nearest Nat.one_pos hshort
  omega

theorem isNegligible_finite {s : Bool} {a : Magnitude} (h : a.units ≤ negligibleUnits) :
    (finite s a).isNegligible = true :=
  decide_eq_true h

/-- Finite numbers whose units differ by no more than what counts as nothing are equal. -/
theorem isNegligible_sub {s t : Bool} {a b : Magnitude}
    (h : (signedUnits s a - signedUnits t b).natAbs ≤ negligibleUnits) :
    ((finite s a).sub (finite t b)).isNegligible = true := by
  show (add (finite s a) (finite (!t) b)).isNegligible = true
  unfold add
  dsimp only
  rw [signedUnits_neg, ← Int.sub_eq_add_neg]
  split
  · exact isNegligible_finite (Nat.zero_le negligibleUnits)
  · have hle := nearestUnits_le_negligible h
    have hlt : negligibleUnits < unitsLimit := by decide +kernel
    rw [round_of_lt _ (Nat.lt_of_le_of_lt hle hlt)]
    exact isNegligible_finite hle

/-- Exact values differ by at most `2 ^ -52` if the units differ by no more than what counts as
nothing. -/
theorem abs_exactValue_sub_le {s t : Bool} {a b : Magnitude}
    (h : (signedUnits s a - signedUnits t b).natAbs ≤ negligibleUnits) :
    |exactValue s a - exactValue t b| ≤ 1 / 2 ^ 52 := by
  have hunit : unitsPerOne = 2 ^ 52 * negligibleUnits := by decide +kernel
  have hpos : (0 : ℚ) < unitsPerOne := Nat.cast_pos.mpr unitsPerOne_pos
  have hcast : |(signedUnits s a - signedUnits t b : ℚ)| ≤ negligibleUnits := by
    rw [← Int.cast_sub, ← Int.cast_abs, Int.abs_eq_natAbs]
    exact_mod_cast h
  unfold exactValue
  rw [← sub_div, abs_div, abs_of_pos hpos, div_le_iff₀ hpos]
  refine hcast.trans (le_of_eq ?_)
  rw [hunit, Nat.cast_mul, Nat.cast_pow, Nat.cast_ofNat, ← mul_assoc, one_div,
    inv_mul_cancel₀ (by norm_num), one_mul]

/-! ## What is displayed -/

/-- A sign that is left out is that of zero. -/
theorem signedUnits_readBack (negative : Bool) (magnitude : Magnitude) :
    signedUnits (showsSign negative magnitude) magnitude.readBack =
      signedUnits negative magnitude.readBack := by
  by_cases hzero : magnitude.displayed = 0
  · have hunits : magnitude.readBack.units = 0 := by
      show magnitude.readUnits = 0
      rw [Magnitude.readUnits, hzero, Nat.zero_mul, nearestUnits_zero]
    simp [signedUnits, hunits]
  · have hshown : showsSign negative magnitude = negative := by
      rw [showsSign, bne_iff_ne.mpr hzero, Bool.and_true]
    rw [hshown]

/-- The distance of two numbers of one sign is that of their magnitudes. -/
theorem natAbs_signedUnits_sub (negative : Bool) (a b : Magnitude) :
    (signedUnits negative a - signedUnits negative b).natAbs = (a.units - b.units : Int).natAbs := by
  cases negative with
  | false => rfl
  | true =>
    show (-(a.units : Int) - -(b.units : Int)).natAbs = _
    omega

/-- What is displayed is read back as a number, its sign kept unless everything shown is zero. -/
theorem read?_display (negative : Bool) (magnitude : Magnitude) :
    read? (finite negative magnitude).display =
      some (finite (showsSign negative magnitude) magnitude.readBack) := by
  have hread := read?_decimalDigits displayPlaces_pos (by decide) (showsSign negative magnitude)
    magnitude.displayed
  rw [round_of_lt _ magnitude.readUnits_lt] at hread
  rw [display_finite]
  exact hread

/-- The text of a finite number is a number literal. -/
theorem lexable_display (negative : Bool) (magnitude : Magnitude) :
    Lexer.Lexable (.number, (finite negative magnitude).display) := by
  have hshape := unsignedShape_decimalDigits displayPlaces_pos magnitude.displayed
  rw [display_finite, signed]
  split
  · exact .negative hshape
  · exact .unsigned (by rwa [String.toList_ofList])

/-- **A displayed number reads back as an equal one.** The text of a finite number is one number token,
with this text, and the end of the input. Where the parser meets the token it reads a finite number, and
the language holds the two for equal: they are at most `2 ^ -52` apart. If the shortest decimal of the
number has at most sixteen places, they are the same number. -/
theorem display_reads_back (negative : Bool) (magnitude : Magnitude) :
    let n := finite negative magnitude
    ∃ (token last : Token) (sign : Bool) (read : Magnitude),
      tokenize n.display = .ok [token, last] ∧ token.content = (.number, n.display) ∧
      last.content = (.endOfInput, "") ∧
      (∀ c : Cursor, Reader.numberOf token c = .ok (finite sign read) c) ∧
      (Value.number (finite sign read)).equals (.number n) = true ∧
      |exactValue sign read - exactValue negative magnitude| ≤ 1 / 2 ^ 52 ∧
      (Nat.pow 10 (Magnitude.tickPlaces - displayPlaces) ∣ magnitude.shortest →
        (finite sign read).numericEq n = true) := by
  intro n
  have hsigned := signedUnits_readBack negative magnitude
  have hnear : (signedUnits (showsSign negative magnitude) magnitude.readBack -
      signedUnits negative magnitude).natAbs ≤ negligibleUnits := by
    rw [hsigned, natAbs_signedUnits_sub]
    exact magnitude.readUnits_near
  have hlexable : ∀ content ∈ [(TokenKind.number, n.display)], Lexer.Lexable content := by
    intro content hcontent
    rw [List.mem_singleton.mp hcontent]
    exact lexable_display negative magnitude
  obtain ⟨tokens, htokens, hcontents⟩ := Lexer.tokenize_spellingAll hlexable
  have hnumber : TokenKind.number ≠ .text := by decide
  rw [Lexer.spellingAll_singleton, Lexer.spelling, if_neg hnumber] at htokens
  obtain ⟨token, others, rfl, htoken, hothers⟩ := List.map_eq_cons_iff.mp hcontents
  obtain ⟨last, rfl, hlast⟩ := List.map_eq_singleton_iff.mp hothers
  refine ⟨token, last, showsSign negative magnitude, magnitude.readBack, htokens, htoken, hlast, ?_,
    isNegligible_sub hnear, abs_exactValue_sub_le hnear, ?_⟩
  · intro c
    have htext : token.text = n.display := congrArg Prod.snd htoken
    rw [Reader.numberOf_apply, htext, read?_display]
  · intro hshort
    have hunits : magnitude.readBack.units = magnitude.units := magnitude.readUnits_of_dvd hshort
    show (signedUnits (showsSign negative magnitude) magnitude.readBack ==
      signedUnits negative magnitude) = true
    rw [hsigned, signedUnits, signedUnits, hunits]
    exact beq_self_eq_true _

end Number

end Parlance
