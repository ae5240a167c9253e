import Parlance.Proofs.Number.Digits

/-!
# A written number is read again

A number is written as digits, with a point before those that count parts of one. The zeros at the end of
the fraction are left out, so fewer decimal places are read: the coefficient is smaller by a power of ten
and so is the denominator, and rounding does not see a common factor.

A number literal stands for a number (`exists_read?_of_unsignedShape`), and what is written for a
multiple of a power of ten is read as the rounding of exactly this multiple (`read?_decimalDigits`).
-/

namespace Parlance

namespace Number

/-- Below the limit, rounding gives a finite number. -/
theorem round_of_lt (negative : Bool) {numerator denominator : Nat}
    (h : nearestUnits numerator denominator < unitsLimit) :
    round negative numerator denominator =
      finite negative ⟨nearestUnits numerator denominator, nearestUnits_mod_spareBits _ _, h⟩ := by
  have hround : Magnitude.round? numerator denominator =
      some ⟨nearestUnits numerator denominator, nearestUnits_mod_spareBits _ _, h⟩ := dif_pos h
  unfold round
  rw [hround]

/-- The sign and the rounded units are all that matters of a quotient. -/
theorem round_congr (negative : Bool) {numerator denominator numerator' denominator' : Nat}
    (h : nearestUnits numerator denominator = nearestUnits numerator' denominator') :
    round negative numerator denominator = round negative numerator' denominator' := by
  have hround : Magnitude.round? numerator denominator =
      Magnitude.round? numerator' denominator' := by
    unfold Magnitude.round?
    simp only [h]
  unfold round
  rw [hround]

theorem round_zero (negative : Bool) (denominator : Nat) :
    round negative 0 denominator = zero negative := by
  have hzero := nearestUnits_zero denominator
  have hround : Magnitude.round? 0 denominator = some .zero := by
    unfold Magnitude.round? Magnitude.zero
    simp only [hzero]
    exact dif_pos unitsLimit_pos
  unfold round zero
  rw [hround]

/-- Rounding gives a number or an infinity. -/
theorem round_ne_nan (negative : Bool) (numerator denominator : Nat) :
    round negative numerator denominator ≠ nan := by
  unfold round
  split <;> nofun

/-- However large or small, a decimal is a number. -/
theorem ofScientific_ne_nan (negative : Bool) (coefficient : Nat) (exponent : Int) :
    ofScientific negative coefficient exponent ≠ nan := by
  unfold ofScientific
  repeat' split
  · nofun
  · nofun
  · exact round_ne_nan _ _ _
  · nofun
  · exact round_ne_nan _ _ _

/-- A coefficient with a number of decimal places is read as a quotient. -/
theorem ofScientific_neg (negative : Bool) (coefficient : Nat) {places : Nat} (h : places ≤ 400) :
    ofScientific negative coefficient (-(places : Int)) =
      round negative (coefficient * unitsPerOne) (10 ^ places) := by
  unfold ofScientific
  by_cases hzero : coefficient = 0
  · rw [if_pos hzero, hzero, Nat.zero_mul, round_zero]
  rw [if_neg hzero, if_neg (by omega)]
  by_cases hwhole : places = 0
  · subst hwhole
    rw [if_pos (by decide)]
    simp
  · rw [if_neg (by omega), if_neg (by omega), Int.neg_neg, Int.toNat_natCast, Nat.pow_eq]

/-- A decimal without an exponent is read up to its end; a point may be the last of it. -/
theorem decimal?_of_digits (negative : Bool) {whole behind : List Char} (nonempty : whole ≠ [])
    (hwhole : ∀ d ∈ whole, d.isDigit = true) (hbehind : Lexer.FractionShape behind) :
    decimal? negative (whole ++ behind) =
      some (ofScientific negative (digitsValue (whole ++ behind.tail))
        (-(behind.tail.length : Int))) := by
  have hrest : behind.takeWhile Char.isDigit = [] := by
    cases hbehind <;> rfl
  have htaken : (whole ++ behind).takeWhile Char.isDigit = whole := by
    rw [List.takeWhile_append_of_pos hwhole, hrest, List.append_nil]
  unfold decimal?
  dsimp only
  rw [htaken, List.drop_left]
  cases hbehind with
  | none => simp [nonempty, exponent?]
  | @some digits hdigits =>
    have hall : digits.takeWhile Char.isDigit = digits := List.takeWhile_eq_self_iff.mpr hdigits
    simp [nonempty, hall, exponent?]

theorem toLower_of_isDigit {d : Char} (h : d.isDigit = true) : d.toLower = d := by
  have hcode := Lexer.isDigit_iff.mp h
  refine dif_neg fun hupper => ?_
  have hlow : 65 ≤ d.toNat := UInt32.le_iff_toNat_le.mp hupper.1
  omega

/-- What begins with a digit is no word. -/
theorem word_ne_of_isDigit {d : Char} (h : d.isDigit = true) (ds : List Char) {word : String}
    (hword : word.toList.head?.any Char.isDigit = false) :
    (String.ofList ((d :: ds).map Char.toLower) == word) = false := by
  rw [beq_eq_false_iff_ne]
  rintro rfl
  rw [String.toList_ofList, List.map_cons, toLower_of_isDigit h, List.head?_cons, Option.any_some,
    h] at hword
  cases hword

theorem splitSign_of_isDigit {d : Char} (h : d.isDigit = true) (ds : List Char) :
    splitSign (d :: ds) = (false, d :: ds) := by
  have hminus : d ≠ '-' := Lexer.ne_of_class h (by decide)
  have hplus : d ≠ '+' := Lexer.ne_of_class h (by decide)
  unfold splitSign
  split
  · rename_i heq
    exact absurd (List.cons.inj heq).1 hminus
  · rename_i heq
    exact absurd (List.cons.inj heq).1 hplus
  · rfl

/-- Digits with a sign or none are read as a decimal. -/
theorem read?_of_isDigit (negative : Bool) {d : Char} (h : d.isDigit = true) (ds : List Char) :
    read? (String.ofList (if negative then '-' :: d :: ds else d :: ds)) =
      decimal? negative (d :: ds) := by
  have hsplit : splitSign (if negative then '-' :: d :: ds else d :: ds) = (negative, d :: ds) := by
    cases negative with
    | false => exact splitSign_of_isDigit h ds
    | true => rfl
  have hnan : (_ == "nan") = false := word_ne_of_isDigit h ds (by decide)
  have hinf : (_ == "inf") = false := word_ne_of_isDigit h ds (by decide)
  have hinfinity : (_ == "infinity") = false := word_ne_of_isDigit h ds (by decide)
  unfold read?
  rw [String.toList_ofList, hsplit]
  dsimp only
  rw [hnan, hinf, hinfinity]
  rfl

/-- A number literal, with a sign or none, is read as a decimal. -/
theorem read?_of_unsignedShape (negative : Bool) {cs : List Char} (h : Lexer.UnsignedShape cs) :
    read? (String.ofList (if negative then '-' :: cs else cs)) = decimal? negative cs := by
  cases h with
  | @mk whole behind nonempty hwhole _ =>
    obtain ⟨d, ds, rfl⟩ := List.exists_cons_of_ne_nil nonempty
    exact read?_of_isDigit negative (hwhole d List.mem_cons_self) (ds ++ behind)

/-- A number literal stands for a number. -/
theorem exists_read?_of_unsignedShape (negative : Bool) {cs : List Char}
    (h : Lexer.UnsignedShape cs) :
    ∃ value, read? (String.ofList (if negative then '-' :: cs else cs)) = some value ∧
      value ≠ nan := by
  rw [read?_of_unsignedShape negative h]
  cases h with
  | mk nonempty hwhole hbehind =>
    exact ⟨_, decimal?_of_digits negative nonempty hwhole hbehind, ofScientific_ne_nan _ _ _⟩

section Written

variable {places : Nat}

/-- A decimal with few places is read as the number nearest to it. -/
theorem decimal?_decimalDigits (hplaces : 0 < places) (hfew : places ≤ 400) (negative : Bool)
    (parts : Nat) :
    decimal? negative (decimalDigits places parts) =
      some (round negative (parts * unitsPerOne) (Nat.pow 10 places)) := by
  obtain ⟨zeros, hlength, hcoefficient⟩ := exists_zeros_of_parts hplaces parts
  obtain ⟨behind, heq, hbehind, htail⟩ := exists_decimalDigits_eq hplaces parts
  rw [heq, decimal?_of_digits negative Nat.toDigits_ne_nil
    (fun d hd => isDigit_of_mem_toDigits hd) hbehind, htail]
  generalize fractionDigits places (parts % Nat.pow 10 places) = fraction at hlength hcoefficient
  have hfraction : fraction.length ≤ 400 := by omega
  rw [ofScientific_neg negative _ hfraction]
  refine congrArg some (round_congr negative ?_)
  generalize digitsValue (Nat.toDigits 10 (parts / Nat.pow 10 places) ++ fraction) =
    coefficient at hcoefficient
  calc nearestUnits (coefficient * unitsPerOne) (10 ^ fraction.length)
      = nearestUnits (coefficient * unitsPerOne * 10 ^ zeros) (10 ^ fraction.length * 10 ^ zeros) :=
        (nearestUnits_mul_right _ _ (ten_pow_pos zeros)).symm
    _ = nearestUnits (parts * unitsPerOne) (Nat.pow 10 places) := by
        rw [Nat.mul_right_comm, hcoefficient, ← Nat.pow_add, hlength, Nat.pow_eq]

/-- A written multiple of a power of ten is read as the rounding of this multiple. -/
theorem read?_decimalDigits (hplaces : 0 < places) (hfew : places ≤ 400) (negative : Bool)
    (parts : Nat) :
    read? (String.ofList (signed negative (decimalDigits places parts))) =
      some (round negative (parts * unitsPerOne) (Nat.pow 10 places)) := by
  rw [← decimal?_decimalDigits hplaces hfew]
  exact read?_of_unsignedShape negative (unsignedShape_decimalDigits hplaces parts)

end Written

end Number

end Parlance
