import Parlance.Proofs.Number.ReadBack

/-!
# The written form of a number is canonical

A plain decimal has a sign or none, a whole part without superfluous zeros before it, and a fraction of
at most sixteen places without zeros behind it. Nothing else is asked of it: the shape is stated on
characters, apart from the writing of numbers.

Both directions are shown. What is written for a multiple of `10 ^ -16` is a plain decimal of this value
(`PlainDecimal.ofParts`), and a plain decimal is what is written for its value
(`PlainDecimal.eq_ofParts`). So the shape leaves no choice but the sign of zero, and the text of a number
is without that sign (`display_canonical`).
-/

namespace Parlance

/-! ## Plain decimals -/

/-- A decimal in plain notation, as its characters. -/
@[ext]
structure PlainDecimal where
  /-- Whether a minus sign stands before it. -/
  negative : Bool
  /-- The digits before the point. -/
  whole : List Char
  /-- The digits behind the point. Where there are none, there is no point. -/
  fraction : List Char
  whole_digits : ∀ d ∈ whole, d.isDigit = true
  whole_nonempty : whole ≠ []
  /-- Only the single digit `0` begins with a zero. -/
  whole_head : whole.head? = some '0' → whole = ['0']
  fraction_digits : ∀ d ∈ fraction, d.isDigit = true
  fraction_length : fraction.length ≤ 16
  fraction_last : fraction.getLast? ≠ some '0'

namespace PlainDecimal

open Number (digitsValue fractionDigits)

/-- What is written behind the sign. -/
def digits (d : PlainDecimal) : List Char :=
  match d.fraction with
  | [] => d.whole
  | fraction => d.whole ++ '.' :: fraction

/-- The text of a decimal. -/
def text (d : PlainDecimal) : String :=
  String.ofList (if d.negative then '-' :: d.digits else d.digits)

/-- The number that a decimal denotes. -/
def value (d : PlainDecimal) : ℚ :=
  (if d.negative then -1 else 1) * (digitsValue (d.whole ++ d.fraction) / 10 ^ d.fraction.length)

/-- How many multiples of `10 ^ -16` a decimal is, without its sign. -/
def parts (d : PlainDecimal) : Nat :=
  digitsValue (d.whole ++ d.fraction) * 10 ^ (16 - d.fraction.length)

theorem value_eq (d : PlainDecimal) :
    d.value = (if d.negative then -1 else 1) * (d.parts / 10 ^ 16) := by
  have hsplit : (10 : ℚ) ^ 16 = 10 ^ d.fraction.length * 10 ^ (16 - d.fraction.length) := by
    rw [← pow_add, Nat.add_sub_cancel' d.fraction_length]
  rw [value, parts, hsplit, Nat.cast_mul, Nat.cast_pow, Nat.cast_ofNat,
    mul_div_mul_right _ _ (by positivity)]

theorem abs_value (d : PlainDecimal) : |d.value| = d.parts / 10 ^ 16 := by
  rw [value_eq, abs_mul, abs_of_nonneg (by positivity : (0 : ℚ) ≤ d.parts / 10 ^ 16)]
  split <;> simp

/-- Decimals with one value have the same parts of a place. -/
theorem parts_eq_of_value_eq {d e : PlainDecimal} (h : d.value = e.value) : d.parts = e.parts := by
  have habs : (d.parts : ℚ) / 10 ^ 16 = e.parts / 10 ^ 16 := by rw [← abs_value, ← abs_value, h]
  exact_mod_cast (div_left_inj' (by positivity)).mp habs

/-- A decimal is below zero if it has a sign and is not zero. -/
theorem value_neg_iff (d : PlainDecimal) : d.value < 0 ↔ d.negative = true ∧ d.parts ≠ 0 := by
  have hnonneg : (0 : ℚ) ≤ d.parts / 10 ^ 16 := by positivity
  rw [value_eq]
  cases d.negative with
  | false => simpa using hnonneg
  | true =>
    have hpos : 0 < (d.parts : ℚ) / 10 ^ 16 ↔ d.parts ≠ 0 := by
      rw [div_pos_iff_of_pos_right (by positivity), Nat.cast_pos, Nat.pos_iff_ne_zero]
    simpa using hpos

/-- What is written for a multiple of `10 ^ -16`. -/
def ofParts (negative : Bool) (parts : Nat) : PlainDecimal where
  negative := negative
  whole := Nat.toDigits 10 (parts / Nat.pow 10 displayPlaces)
  fraction := fractionDigits displayPlaces (parts % Nat.pow 10 displayPlaces)
  whole_digits _ := Number.isDigit_of_mem_toDigits
  whole_nonempty := Nat.toDigits_ne_nil
  whole_head := Number.toDigits_eq_of_head?
  fraction_digits := by
    obtain ⟨-, -, -, -, hdigits⟩ := Number.fractionDigits_spec displayPlaces_pos
      (Nat.mod_lt parts (ten_pow_pos displayPlaces))
    exact hdigits
  fraction_length := by
    obtain ⟨zeros, hlength, -⟩ := Number.exists_zeros_of_parts displayPlaces_pos parts
    exact (Nat.le_add_right _ zeros).trans_eq hlength
  fraction_last := Number.getLast?_fractionDigits _ _

theorem parts_ofParts (negative : Bool) (parts : Nat) : (ofParts negative parts).parts = parts := by
  obtain ⟨zeros, hlength, hparts⟩ := Number.exists_zeros_of_parts displayPlaces_pos parts
  have hzeros : 16 - (ofParts negative parts).fraction.length = zeros := by
    change (ofParts negative parts).fraction.length + zeros = 16 at hlength
    omega
  rw [PlainDecimal.parts, hzeros]
  exact hparts

/-- A decimal is what is written for its value: the shape leaves no choice. -/
theorem eq_ofParts (d : PlainDecimal) : d = ofParts d.negative d.parts := by
  have hplaces : d.fraction.length + (16 - d.fraction.length) = displayPlaces :=
    Nat.add_sub_cancel' d.fraction_length
  have hparts : d.parts = digitsValue d.whole * Nat.pow 10 displayPlaces +
      digitsValue d.fraction * 10 ^ (16 - d.fraction.length) := by
    rw [parts, Number.digitsValue_append, Nat.add_mul, Nat.mul_assoc, ← Nat.pow_add, hplaces,
      Nat.pow_eq]
  have hless : digitsValue d.fraction * 10 ^ (16 - d.fraction.length) < Nat.pow 10 displayPlaces := by
    rw [← hplaces, ten_pow_add]
    exact Nat.mul_lt_mul_of_pos_right (Number.digitsValue_lt d.fraction_digits) (ten_pow_pos _)
  have hwhole : d.parts / Nat.pow 10 displayPlaces = digitsValue d.whole := by
    rw [hparts, Nat.add_comm, Nat.add_mul_div_right _ _ (ten_pow_pos displayPlaces),
      Nat.div_eq_of_lt hless, Nat.zero_add]
  have hfraction : d.parts % Nat.pow 10 displayPlaces =
      digitsValue d.fraction * 10 ^ (16 - d.fraction.length) := by
    rw [hparts, Nat.add_comm, Nat.add_mul_mod_self_right, Nat.mod_eq_of_lt hless]
  ext1
  · rfl
  · show d.whole = Nat.toDigits 10 (d.parts / Nat.pow 10 displayPlaces)
    rw [hwhole, Number.toDigits_digitsValue d.whole_digits d.whole_nonempty d.whole_head]
  · show d.fraction = fractionDigits displayPlaces (d.parts % Nat.pow 10 displayPlaces)
    rw [hfraction, Number.fractionDigits_digitsValue d.fraction_digits d.fraction_last
      displayPlaces_pos hplaces]

/-- Without a sign on zero, the value decides the decimal. -/
theorem eq_of_value_eq {d e : PlainDecimal} (hd : d.negative = true → d.value < 0)
    (he : e.negative = true → e.value < 0) (h : d.value = e.value) : d = e := by
  have hsign : d.negative = e.negative := by
    rw [Bool.eq_iff_iff]
    constructor
    · intro hnegative
      exact ((value_neg_iff e).mp (h ▸ hd hnegative)).1
    · intro hnegative
      exact ((value_neg_iff d).mp (h ▸ he hnegative)).1
  rw [eq_ofParts d, eq_ofParts e, hsign, parts_eq_of_value_eq h]

/-- A minus in front is a negative sign and nothing else. -/
theorem head?_text_eq_minus_iff (d : PlainDecimal) :
    d.text.toList.head? = some '-' ↔ d.negative = true := by
  rw [text, String.toList_ofList]
  cases d.negative with
  | true => exact ⟨fun _ => rfl, fun _ => rfl⟩
  | false =>
    obtain ⟨c, cs, hwhole⟩ := List.exists_cons_of_ne_nil d.whole_nonempty
    have hhead : d.digits.head? = some c := by
      rw [digits, hwhole]
      split <;> rfl
    have hc : c ≠ '-' :=
      Lexer.ne_of_class (d.whole_digits c (hwhole ▸ List.mem_cons_self)) (by decide)
    simp [hhead, hc]

/-- What is written as a single zero is zero. -/
theorem parts_of_digits {d : PlainDecimal} (h : d.digits = ['0']) : d.parts = 0 := by
  cases hfraction : d.fraction with
  | nil =>
    have hwhole : d.whole = ['0'] := by rwa [digits, hfraction] at h
    rw [parts, hfraction, hwhole]
    rfl
  | cons c cs =>
    rw [digits, hfraction] at h
    have hpoint : '.' ∈ ['0'] := h ▸ List.mem_append_right _ List.mem_cons_self
    cases List.mem_singleton.mp hpoint

/-- With a sign only below zero, there is none on zero. -/
theorem text_ne_minus_zero {d : PlainDecimal} (h : d.negative = true → d.value < 0) :
    d.text ≠ "-0" := by
  intro hzero
  have hchars : d.text.toList = ['-', '0'] := congrArg String.toList hzero
  have hnegative : d.negative = true := by
    rw [← head?_text_eq_minus_iff, hchars]
    rfl
  have hdigits : d.digits = ['0'] := by
    rw [text, if_pos hnegative, String.toList_ofList] at hchars
    exact (List.cons.inj hchars).2
  exact ((value_neg_iff d).mp (h hnegative)).2 (parts_of_digits hdigits)

end PlainDecimal

namespace Number

/-- The decimal that is displayed for a finite number. -/
def displayedDecimal (negative : Bool) (magnitude : Magnitude) : PlainDecimal :=
  .ofParts (showsSign negative magnitude) magnitude.displayed

/-- A finite number is displayed as its plain decimal. -/
theorem display_eq_text (negative : Bool) (magnitude : Magnitude) :
    (finite negative magnitude).display = (displayedDecimal negative magnitude).text :=
  display_finite negative magnitude

theorem parts_displayedDecimal (negative : Bool) (magnitude : Magnitude) :
    (displayedDecimal negative magnitude).parts = magnitude.displayed :=
  PlainDecimal.parts_ofParts _ _

/-- A sign that is left out is that of zero. -/
theorem value_displayedDecimal (negative : Bool) (magnitude : Magnitude) :
    (displayedDecimal negative magnitude).value =
      (if negative then -1 else 1) * (magnitude.displayed / 10 ^ 16) := by
  rw [PlainDecimal.value_eq, parts_displayedDecimal]
  show (if showsSign negative magnitude then -1 else 1) * _ = _
  by_cases hzero : magnitude.displayed = 0
  · simp [hzero]
  · rw [showsSign, bne_iff_ne.mpr hzero, Bool.and_true]

/-- A sign that is shown is that of a number below zero. -/
theorem value_neg_of_displayedDecimal {negative : Bool} {magnitude : Magnitude}
    (h : (displayedDecimal negative magnitude).negative = true) :
    (displayedDecimal negative magnitude).value < 0 := by
  have hshown : (negative && magnitude.displayed != 0) = true := h
  rw [Bool.and_eq_true, bne_iff_ne, ← parts_displayedDecimal negative] at hshown
  exact (PlainDecimal.value_neg_iff _).mpr ⟨h, hshown.2⟩

/-- **The text of a finite number is canonical.** It is a plain decimal: a minus sign or none, `0` or digits
that do not begin with a zero, and perhaps a point and one to sixteen digits the last of which is not a
zero. It denotes what is displayed of the number, it is never `-0`, and it begins with a minus sign exactly
if it denotes a number below zero. No other plain decimal denotes the same, but for a sign on zero. -/
theorem display_canonical (negative : Bool) (magnitude : Magnitude) :
    let n := finite negative magnitude
    ∃ shown : PlainDecimal, n.display = shown.text ∧
      shown.value = (if negative then -1 else 1) * (magnitude.displayed / 10 ^ 16) ∧
      n.display ≠ "-0" ∧
      (n.display.toList.head? = some '-' ↔ shown.value < 0) ∧
      ∀ other : PlainDecimal, (other.negative = true → other.value < 0) →
        other.value = shown.value → other = shown := by
  intro n
  have hsign : n.display.toList.head? = some '-' ↔ (displayedDecimal negative magnitude).value < 0 := by
    rw [display_eq_text, PlainDecimal.head?_text_eq_minus_iff]
    exact ⟨value_neg_of_displayedDecimal, fun h => ((PlainDecimal.value_neg_iff _).mp h).1⟩
  refine ⟨displayedDecimal negative magnitude, display_eq_text negative magnitude,
    value_displayedDecimal negative magnitude, ?_, hsign, ?_⟩
  · rw [display_eq_text]
    exact PlainDecimal.text_ne_minus_zero value_neg_of_displayedDecimal
  · intro other hother hvalue
    exact PlainDecimal.eq_of_value_eq hother value_neg_of_displayedDecimal hvalue

end Number

end Parlance
