import Parlance.Proofs.Number.Digits

/-!
# What is displayed of a number

The text of a number is made in steps on texts: the shortest decimal is split at its point, and the
length of its fraction decides whether it stays or a text with sixteen places takes its stead, from which
zeros and a point are trimmed. Here the steps are followed to what they amount to.

* The fraction of a decimal is short exactly if enough zeros end the number of its parts
  (`length_fractionDigits_le_iff`), and then it is a decimal in sixteen places as well.
* Trimming takes zeros from the fraction only, for the point stands before it, and it takes the point if
  no digit is left behind it (`trimMarks_fixedDigits`).
* The sign that is taken away at last is that of zero (`unsignedZero_decimalDigits`).

So a finite number is displayed as a multiple of `10 ^ -16` without zeros at the end of its fraction
(`display_finite`); `Magnitude.displayed` says which multiple.
-/

namespace Parlance

open Text

theorem displayPlaces_pos : 0 < displayPlaces := by decide

/-- What is displayed of a magnitude, in multiples of `10 ^ -16`: its shortest decimal if that is such a
multiple, else the multiple nearest to the magnitude. -/
def Magnitude.displayed (magnitude : Magnitude) : Nat :=
  let surplus := Nat.pow 10 (Magnitude.tickPlaces - displayPlaces)
  let ticks := magnitude.shortest
  if ticks % surplus = 0 then ticks / surplus
  else roundDiv (magnitude.units * Nat.pow 10 displayPlaces) unitsPerOne

namespace Number

/-- Whether a displayed number has a sign: zero has none. -/
def showsSign (negative : Bool) (magnitude : Magnitude) : Bool :=
  negative && magnitude.displayed != 0

variable {places : Nat}

/-! ## The length of the fraction -/

/-- The sign stands in front of everything. -/
theorem signed_append (negative : Bool) (front back : List Char) :
    signed negative (front ++ back) = signed negative front ++ back := by
  cases negative <;> rfl

/-- Whole digits have no point, with a sign or without. -/
theorem point_not_mem_signed (negative : Bool) (n : Nat) :
    '.' ∉ signed negative (Nat.toDigits 10 n) := by
  have hdigits : '.' ∉ Nat.toDigits 10 n := fun hmem => by
    have hdigit := isDigit_of_mem_toDigits hmem
    contradiction
  cases negative with
  | false => exact hdigits
  | true =>
    rw [signed, if_pos rfl, List.mem_cons, not_or]
    exact ⟨by decide, hdigits⟩

/-- A decimal is split at its point into its whole part and its fraction. -/
theorem splitOnce_decimalDigits (negative : Bool) (places parts : Nat) :
    splitOnce '.' (signed negative (decimalDigits places parts)) =
      match fractionDigits places (parts % Nat.pow 10 places) with
      | [] => none
      | fraction => some (signed negative (Nat.toDigits 10 (parts / Nat.pow 10 places)), fraction) := by
  have hpoint := point_not_mem_signed negative (parts / Nat.pow 10 places)
  unfold decimalDigits
  dsimp only
  cases fractionDigits places (parts % Nat.pow 10 places) with
  | nil => exact splitOnce_of_not_mem hpoint
  | cons d ds =>
    dsimp only
    rw [signed_append]
    exact splitOnce_append hpoint (d :: ds)

/-- A fraction is short if enough zeros end the number of its parts. -/
theorem length_fractionDigits_le_iff (hplaces : 0 < places) (zeros parts : Nat) :
    (fractionDigits (places + zeros) (parts % Nat.pow 10 (places + zeros))).length ≤ places ↔
      Nat.pow 10 zeros ∣ parts := by
  have hpow := ten_pow_add places zeros
  constructor
  · intro hshort
    obtain ⟨trimmed, hlength, -, hvalue, -⟩ := fractionDigits_spec (Nat.add_pos_left hplaces zeros)
      (Nat.mod_lt parts (ten_pow_pos (places + zeros)))
    have hmany : zeros ≤ trimmed := by omega
    have hdvd : Nat.pow 10 zeros ∣ parts % Nat.pow 10 (places + zeros) := by
      rw [← hvalue]
      exact Nat.dvd_mul_left_of_dvd (Nat.pow_dvd_pow 10 hmany) _
    exact (Nat.dvd_mod_iff (hpow ▸ Nat.dvd_mul_left _ _)).mp hdvd
  · rintro ⟨few, rfl⟩
    have hless := Nat.mod_lt few (ten_pow_pos places)
    have hsame := fractionDigits_mul hplaces hless zeros
    obtain ⟨trimmed, hlength, -⟩ := fractionDigits_spec hplaces hless
    rw [Nat.mul_comm, hpow, Nat.mul_mod_mul_right]
    exact hsame ▸ Nat.le_of_add_right_le (Nat.le_of_eq hlength)

/-! ## The two trims -/

/-- Behind a point the last character is the point or the last digit. -/
theorem getLast?_append_point (front fraction : List Char) :
    (front ++ '.' :: fraction).getLast? = some (fraction.getLast?.getD '.') := by
  rw [List.getLast?_append, List.getLast?_cons, Option.some_or]

/-- Of a decimal with all its places the zeros that end the fraction are trimmed, and the point if there
is no fraction left. The zeros of the whole part stay. -/
theorem trimMarks_fixedDigits (hplaces : 0 < places) (negative : Bool) (parts : Nat) :
    trimMarks '.' (trimMarks '0' (signed negative (fixedDigits places parts))) =
      signed negative (decimalDigits places parts) := by
  obtain ⟨zeros, -, hpadded, -, hdigits⟩ :=
    fractionDigits_spec hplaces (Nat.mod_lt parts (ten_pow_pos places))
  have hlast := getLast?_fractionDigits places (parts % Nat.pow 10 places)
  have hpoint := point_not_mem_signed negative (parts / Nat.pow 10 places)
  unfold fixedDigits decimalDigits
  dsimp only
  rw [← hpadded]
  generalize fractionDigits places (parts % Nat.pow 10 places) = fraction at hlast hdigits
  rw [signed_append, ← List.cons_append, ← List.append_assoc, trimMarks_append_replicate]
  · cases fraction with
    | nil =>
      have hfront : (signed negative (Nat.toDigits 10 (parts / Nat.pow 10 places))).getLast? ≠
          some '.' := fun h => hpoint (List.mem_of_getLast? h)
      exact trimMarks_append_replicate hfront 1
    | cons d ds =>
      obtain ⟨e, he⟩ : ∃ e, (d :: ds).getLast? = some e := ⟨_, List.getLast?_cons⟩
      have hdigit : e ≠ '.' := Lexer.ne_of_class (hdigits e (List.mem_of_getLast? he)) (by decide)
      have hend : (signed negative (Nat.toDigits 10 (parts / Nat.pow 10 places)) ++
          '.' :: d :: ds).getLast? ≠ some '.' := by
        simpa [getLast?_append_point, he] using hdigit
      have hkept := trimMarks_append_replicate hend 0
      rw [List.replicate_zero, List.append_nil] at hkept
      rw [hkept]
      exact (signed_append _ _ _).symm
  · rw [getLast?_append_point]
    cases hend : fraction.getLast? with
    | none => decide
    | some d => exact hend ▸ hlast

/-! ## The sign of zero -/

/-- Only zero is written as a single zero. -/
theorem decimalDigits_eq_zero_iff (hplaces : 0 < places) {parts : Nat} :
    decimalDigits places parts = ['0'] ↔ parts = 0 := by
  constructor
  · intro h
    obtain ⟨zeros, -, hvalue⟩ := exists_zeros_of_parts hplaces parts
    obtain ⟨behind, heq, -, htail⟩ := exists_decimalDigits_eq hplaces parts
    obtain ⟨d, ds, hwhole⟩ :=
      List.exists_cons_of_ne_nil (Nat.toDigits_ne_nil (b := 10) (n := parts / Nat.pow 10 places))
    rw [h, hwhole, List.cons_append, List.cons.injEq] at heq
    obtain ⟨rfl, hnil⟩ := heq
    obtain ⟨rfl, rfl⟩ := List.append_eq_nil_iff.mp hnil.symm
    rw [hwhole, ← htail] at hvalue
    exact hvalue.symm.trans (Nat.zero_mul _)
  · rintro rfl
    have hnone : fractionDigits places (digitsValue [] * 10 ^ places) = [] :=
      fractionDigits_digitsValue nofun nofun hplaces (Nat.zero_add places)
    rw [show digitsValue [] = 0 from rfl, Nat.zero_mul] at hnone
    unfold decimalDigits
    rw [Nat.zero_div, Nat.zero_mod, hnone]
    exact Nat.toDigits_zero 10

/-- The test for a zero with a sign takes away the sign of zero and no other. -/
theorem unsignedZero_decimalDigits (hplaces : 0 < places) (negative : Bool) (parts : Nat) :
    (if signed negative (decimalDigits places parts) = ['-', '0'] then ['0']
      else signed negative (decimalDigits places parts)) =
        signed (negative && parts != 0) (decimalDigits places parts) := by
  have hminus : '-' ∉ decimalDigits places parts :=
    Lexer.not_mem_of_unsignedShape (unsignedShape_decimalDigits hplaces parts) (by decide) (by decide)
  cases negative with
  | false =>
    have hunsigned : signed false (decimalDigits places parts) = decimalDigits places parts := rfl
    rw [hunsigned, Bool.false_and, hunsigned, if_neg]
    intro h
    exact hminus (h ▸ List.mem_cons_self)
  | true =>
    have hsigned : signed true (decimalDigits places parts) = ['-', '0'] ↔ parts = 0 := by
      rw [signed, if_pos rfl, List.cons.injEq, eq_self_iff_true, true_and,
        decimalDigits_eq_zero_iff hplaces]
    by_cases hzero : parts = 0
    · rw [if_pos (hsigned.mpr hzero), hzero, (decimalDigits_eq_zero_iff hplaces).mpr rfl]
      rfl
    · rw [if_neg (mt hsigned.mp hzero), bne_iff_ne.mpr hzero, Bool.and_self]

/-! ## The whole text -/

/-- Both ways lead to the decimal of what is displayed. -/
theorem plainText_finite (negative : Bool) (magnitude : Magnitude) :
    (finite negative magnitude).plainText =
      signed negative (decimalDigits displayPlaces magnitude.displayed) := by
  have hsum : displayPlaces + (Magnitude.tickPlaces - displayPlaces) = Magnitude.tickPlaces := by
    decide
  have hshort := length_fractionDigits_le_iff displayPlaces_pos (Magnitude.tickPlaces - displayPlaces)
    magnitude.shortest
  rw [hsum] at hshort
  unfold plainText
  rw [shortestText, splitOnce_decimalDigits]
  by_cases hdvd : Nat.pow 10 (Magnitude.tickPlaces - displayPlaces) ∣ magnitude.shortest
  · -- The shortest decimal stays, and it is one in sixteen places.
    have hdisplayed : magnitude.displayed * Nat.pow 10 (Magnitude.tickPlaces - displayPlaces) =
        magnitude.shortest := by
      rw [Magnitude.displayed, if_pos (Nat.mod_eq_zero_of_dvd hdvd)]
      exact Nat.div_mul_cancel hdvd
    have hsame := decimalDigits_mul displayPlaces_pos (Magnitude.tickPlaces - displayPlaces)
      magnitude.displayed
    rw [hsum, hdisplayed] at hsame
    have hle := hshort.mpr hdvd
    rw [hsame]
    split
    · rename_i hsplit
      split at hsplit
      · cases hsplit
      · cases hsplit
        rw [if_neg (Nat.not_lt.mpr hle)]
    · rfl
  · -- The fraction is too long, so there is one, and the fixed text is trimmed.
    have hlong := Nat.lt_of_not_le (mt hshort.mp hdvd)
    have hdisplayed : magnitude.displayed =
        roundDiv (magnitude.units * Nat.pow 10 displayPlaces) unitsPerOne := by
      rw [Magnitude.displayed, if_neg (mt Nat.dvd_of_mod_eq_zero hdvd)]
    rw [hdisplayed, ← trimMarks_fixedDigits displayPlaces_pos]
    split
    · rename_i hsplit
      split at hsplit
      · cases hsplit
      · cases hsplit
        rw [if_pos hlong, fixedText]
    · rename_i hsplit
      split at hsplit
      · rename_i hnone
        rw [hnone] at hlong
        cases hlong
      · cases hsplit

/-- **A finite number is displayed as a decimal of at most sixteen places.** All steps on texts together
write the multiple of `10 ^ -16` that is displayed, without zeros at the end of its fraction, and with a
sign unless it is zero. -/
theorem display_finite (negative : Bool) (magnitude : Magnitude) :
    (finite negative magnitude).display =
      String.ofList (signed (showsSign negative magnitude)
        (decimalDigits displayPlaces magnitude.displayed)) := by
  have hfinite : (finite negative magnitude).isFinite = true := rfl
  rw [display, if_pos hfinite, plainText_finite, unsignedZero_decimalDigits displayPlaces_pos,
    showsSign]

end Number

end Parlance
