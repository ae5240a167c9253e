import Mathlib.Data.List.DropRight
import Mathlib.Data.List.Induction
import Parlance.Number.Display
import Parlance.Number.Reading
import Parlance.Proofs.Number.Shortest
import Parlance.Proofs.Token.Scanning

/-!
# Digits and their values

Digits stand for a value, and as many digits of one value are the same digits (`ofDigitChars_inj`). So
padded digits are those of their value (`paddedDigits_digitsValue`), and a fraction without zeros at its
end is the one that is written for its value (`fractionDigits_digitsValue`), whatever the number of
places it is counted in (`decimalDigits_mul`).

A written decimal is digits, and behind a point the digits of a fraction, if there are any
(`exists_decimalDigits_eq`).
-/

namespace Parlance

namespace Text

/-! ## Trimmed texts -/

variable {mark : Char} {cs : List Char}

/-- What is trimmed are marks. -/
theorem exists_trimMarks_append (mark : Char) (cs : List Char) :
    ∃ n, trimMarks mark cs ++ List.replicate n mark = cs := by
  have hmarks : cs.rtakeWhile (· == mark) =
      List.replicate (cs.rtakeWhile (· == mark)).length mark := by
    refine List.eq_replicate_of_mem fun c hc => ?_
    have hmark := List.mem_rtakeWhile_imp hc
    exact eq_of_beq hmark
  refine ⟨(cs.rtakeWhile (· == mark)).length, ?_⟩
  rw [← hmarks]
  exact List.rdropWhile_append_rtakeWhile

/-- Nothing is left to trim. -/
theorem getLast?_trimMarks (mark : Char) (cs : List Char) :
    (trimMarks mark cs).getLast? ≠ some mark := by
  intro hlast
  have hne : trimMarks mark cs ≠ [] := by
    intro hnil
    rw [hnil] at hlast
    cases hlast
  have hnot : ¬ ((trimMarks mark cs).getLast hne == mark) = true := List.rdropWhile_last_not _ _ hne
  rw [(List.getLast_eq_iff_getLast?_eq_some hne).mpr hlast] at hnot
  exact hnot (beq_self_eq_true mark)

/-- Without a mark at its end a text stays, and marks behind it go. -/
theorem trimMarks_append_replicate (h : cs.getLast? ≠ some mark) (n : Nat) :
    trimMarks mark (cs ++ List.replicate n mark) = cs := by
  have hself : cs.rdropWhile (· == mark) = cs := by
    rw [List.rdropWhile_eq_self_iff]
    intro hne hmark
    exact h ((List.getLast_eq_iff_getLast?_eq_some hne).mp (eq_of_beq hmark))
  have hmarks : ∀ c ∈ (List.replicate n mark).reverse, (c == mark) = true := by
    intro c hc
    rw [List.eq_of_mem_replicate (List.mem_reverse.mp hc)]
    exact beq_self_eq_true mark
  rw [trimMarks, List.reverse_append, List.dropWhile_append_of_pos hmarks]
  exact hself

end Text

open Text

namespace Number

/-! ## Digits -/

/-- Digits in front count for as many places as follow. -/
theorem digitsValue_append (front back : List Char) :
    digitsValue (front ++ back) = digitsValue front * 10 ^ back.length + digitsValue back := by
  show Nat.ofDigitChars 10 (front ++ back) 0 = _
  rw [Nat.ofDigitChars_append, Nat.ofDigitChars_eq_ofDigitChars_zero, Nat.mul_comm]
  rfl

theorem digitsValue_toDigits (n : Nat) : digitsValue (Nat.toDigits 10 n) = n :=
  Nat.ofDigitChars_ten_toDigits

theorem digitsValue_zeros (n : Nat) : digitsValue (List.replicate n '0') = 0 :=
  Nat.ofDigitChars_replicate_zero.trans (Nat.mul_zero _)

theorem isDigit_of_mem_toDigits {n : Nat} {d : Char} (h : d ∈ Nat.toDigits 10 n) :
    d.isDigit = true :=
  Nat.isDigit_of_mem_toDigits (by decide) (Nat.le_refl 10) h

theorem isDigit_of_mem_zeros {n : Nat} {d : Char} (h : d ∈ List.replicate n '0') :
    d.isDigit = true := by
  rw [List.eq_of_mem_replicate h]
  rfl

/-! ## Digits of a value -/

/-- A digit is less than ten. -/
theorem digit_lt {d : Char} (h : d.isDigit = true) : d.toNat - '0'.toNat < 10 := by
  have hcode := Lexer.isDigit_iff.mp h
  show d.toNat - 48 < 10
  omega

/-- Digits with one value are one digit. -/
theorem eq_of_digit_eq {d e : Char} (hd : d.isDigit = true) (he : e.isDigit = true)
    (h : d.toNat - '0'.toNat = e.toNat - '0'.toNat) : d = e := by
  have hdcode := Lexer.isDigit_iff.mp hd
  have hecode := Lexer.isDigit_iff.mp he
  change d.toNat - 48 = e.toNat - 48 at h
  exact Char.toNat_inj.mp (by omega)

/-- As many digits that continue a value to the same value are the same, and so is what they continue. -/
theorem ofDigitChars_inj {digits others : List Char} {a b : Nat}
    (hdigits : ∀ d ∈ digits, d.isDigit = true) (hothers : ∀ d ∈ others, d.isDigit = true)
    (hlength : digits.length = others.length)
    (h : Nat.ofDigitChars 10 digits a = Nat.ofDigitChars 10 others b) : a = b ∧ digits = others := by
  induction digits generalizing others a b with
  | nil =>
    obtain rfl := List.length_eq_zero_iff.mp hlength.symm
    exact ⟨h, rfl⟩
  | cons d digits ih =>
    obtain ⟨e, others, rfl⟩ := List.exists_cons_of_length_eq_add_one hlength.symm
    obtain ⟨hd, hdigits⟩ := List.forall_mem_cons.mp hdigits
    obtain ⟨he, hothers⟩ := List.forall_mem_cons.mp hothers
    rw [Nat.ofDigitChars_cons, Nat.ofDigitChars_cons] at h
    obtain ⟨hfirst, rfl⟩ := ih hdigits hothers (Nat.succ.inj hlength) h
    have hdlt := digit_lt hd
    have helt := digit_lt he
    exact ⟨by omega, by rw [eq_of_digit_eq hd he (by omega)]⟩

/-- Digits stay below the power of ten of their number. -/
theorem digitsValue_lt {digits : List Char} (h : ∀ d ∈ digits, d.isDigit = true) :
    digitsValue digits < 10 ^ digits.length := by
  induction digits using List.reverseRecOn with
  | nil => exact Nat.one_pos
  | append_singleton digits d ih =>
    have hvalue : digitsValue [d] = d.toNat - '0'.toNat := Nat.zero_add _
    have hlt := ih fun e he => h e (List.mem_append_left _ he)
    have hdlt := digit_lt (h d (by simp))
    rw [digitsValue_append, hvalue, List.length_append, Nat.pow_add]
    simp only [List.length_singleton, Nat.pow_one]
    omega

/-- Digits are those of their value, with zeros before them. -/
theorem zeros_append_toDigits {digits : List Char} (h : ∀ d ∈ digits, d.isDigit = true)
    (nonempty : digits ≠ []) :
    List.replicate (digits.length - (Nat.toDigits 10 (digitsValue digits)).length) '0' ++
      Nat.toDigits 10 (digitsValue digits) = digits := by
  have hlength : (Nat.toDigits 10 (digitsValue digits)).length ≤ digits.length :=
    (Nat.length_toDigits_le_iff (by decide) (List.length_pos_iff.mpr nonempty)).mpr (digitsValue_lt h)
  refine (ofDigitChars_inj (a := 0) (b := 0) ?_ h ?_ ?_).2
  · exact List.forall_mem_append.mpr
      ⟨fun _ => isDigit_of_mem_zeros, fun _ => isDigit_of_mem_toDigits⟩
  · rw [List.length_append, List.length_replicate]
    omega
  · show digitsValue _ = digitsValue digits
    rw [digitsValue_append, digitsValue_zeros, digitsValue_toDigits, Nat.zero_mul, Nat.zero_add]

/-- A whole part has no superfluous zero before it. -/
theorem toDigits_eq_of_head? {n : Nat} (h : (Nat.toDigits 10 n).head? = some '0') :
    Nat.toDigits 10 n = ['0'] := by
  obtain ⟨rest, hrest⟩ := List.head?_eq_some_iff.mp h
  rcases eq_or_ne rest [] with rfl | hne
  · exact hrest
  · -- The zero stands for nothing, so the rest is enough for the number.
    have hdigits : ∀ d ∈ rest, d.isDigit = true := fun d hd =>
      isDigit_of_mem_toDigits (hrest ▸ List.mem_cons_of_mem '0' hd)
    have hvalue : digitsValue rest = n := by
      rw [← digitsValue_toDigits n, hrest]
      rfl
    have hshort : (Nat.toDigits 10 n).length ≤ rest.length :=
      (Nat.length_toDigits_le_iff (by decide) (List.length_pos_iff.mpr hne)).mpr
        (hvalue ▸ digitsValue_lt hdigits)
    rw [hrest, List.length_cons] at hshort
    omega

/-- A whole part without a superfluous zero is the one of its value. -/
theorem toDigits_digitsValue {whole : List Char} (h : ∀ d ∈ whole, d.isDigit = true)
    (nonempty : whole ≠ []) (hzero : whole.head? = some '0' → whole = ['0']) :
    Nat.toDigits 10 (digitsValue whole) = whole := by
  have hpadded := zeros_append_toDigits h nonempty
  cases hcount : whole.length - (Nat.toDigits 10 (digitsValue whole)).length with
  | zero =>
    rw [hcount] at hpadded
    exact hpadded
  | succ count =>
    have hhead : whole.head? = some '0' := by
      rw [← hpadded, hcount, List.replicate_succ]
      rfl
    rw [hzero hhead]
    exact Nat.toDigits_zero 10

/-! ## Fractions -/

section Fractions

variable {places parts : Nat}

/-- Zeros in front do not count. -/
theorem digitsValue_paddedDigits (places parts : Nat) :
    digitsValue (paddedDigits places parts) = parts := by
  unfold paddedDigits
  dsimp only
  rw [digitsValue_append, digitsValue_zeros, digitsValue_toDigits, Nat.zero_mul, Nat.zero_add]

/-- Padded digits fill their places. -/
theorem length_paddedDigits (hplaces : 0 < places) (h : parts < Nat.pow 10 places) :
    (paddedDigits places parts).length = places := by
  have hlength : (Nat.toDigits 10 parts).length ≤ places :=
    (Nat.length_toDigits_le_iff (by decide) hplaces).mpr h
  unfold paddedDigits
  dsimp only
  rw [List.length_append, List.length_replicate]
  omega

theorem isDigit_of_mem_paddedDigits {d : Char} (h : d ∈ paddedDigits places parts) :
    d.isDigit = true := by
  rcases List.mem_append.mp h with h | h
  · exact isDigit_of_mem_zeros h
  · exact isDigit_of_mem_toDigits h

/-- The digits of a fraction and the zeros left out are the digits of all its places. -/
theorem fractionDigits_spec (hplaces : 0 < places) (h : parts < Nat.pow 10 places) :
    ∃ zeros, (fractionDigits places parts).length + zeros = places ∧
      fractionDigits places parts ++ List.replicate zeros '0' = paddedDigits places parts ∧
      digitsValue (fractionDigits places parts) * 10 ^ zeros = parts ∧
        ∀ d ∈ fractionDigits places parts, d.isDigit = true := by
  obtain ⟨zeros, hsplit⟩ := exists_trimMarks_append '0' (paddedDigits places parts)
  refine ⟨zeros, ?_, hsplit, ?_, fun d hd => ?_⟩
  · have hlength := length_paddedDigits hplaces h
    rwa [← hsplit, List.length_append, List.length_replicate] at hlength
  · have hvalue := digitsValue_paddedDigits places parts
    rwa [← hsplit, digitsValue_append, digitsValue_zeros, List.length_replicate, Nat.add_zero]
      at hvalue
  · have hmem : d ∈ paddedDigits places parts := hsplit ▸ List.mem_append_left _ hd
    exact isDigit_of_mem_paddedDigits hmem

/-- The places behind the point do not end in a zero. -/
theorem getLast?_fractionDigits (places parts : Nat) :
    (fractionDigits places parts).getLast? ≠ some '0' :=
  getLast?_trimMarks '0' _

/-- Digits that fill their places are padded as they are. -/
theorem paddedDigits_digitsValue {digits : List Char} (h : ∀ d ∈ digits, d.isDigit = true)
    (nonempty : digits ≠ []) : paddedDigits digits.length (digitsValue digits) = digits :=
  zeros_append_toDigits h nonempty

/-- A fraction without zeros behind it is the one of its value. -/
theorem fractionDigits_digitsValue {fraction : List Char} {zeros : Nat}
    (h : ∀ d ∈ fraction, d.isDigit = true) (hlast : fraction.getLast? ≠ some '0')
    (hplaces : 0 < places) (hlength : fraction.length + zeros = places) :
    fractionDigits places (digitsValue fraction * 10 ^ zeros) = fraction := by
  have hall : ∀ d ∈ fraction ++ List.replicate zeros '0', d.isDigit = true :=
    List.forall_mem_append.mpr ⟨h, fun _ => isDigit_of_mem_zeros⟩
  have hfull : (fraction ++ List.replicate zeros '0').length = places := by
    rw [List.length_append, List.length_replicate, hlength]
  have hpadded := paddedDigits_digitsValue hall (List.ne_nil_of_length_pos (hfull ▸ hplaces))
  rw [hfull, digitsValue_append, digitsValue_zeros, List.length_replicate, Nat.add_zero] at hpadded
  rw [fractionDigits, hpadded]
  exact trimMarks_append_replicate hlast zeros

/-- More places change nothing: the zeros that fill them are left out. -/
theorem fractionDigits_mul (hplaces : 0 < places) (h : parts < Nat.pow 10 places) (zeros : Nat) :
    fractionDigits (places + zeros) (parts * Nat.pow 10 zeros) = fractionDigits places parts := by
  obtain ⟨trimmed, hlength, -, hvalue, hdigits⟩ := fractionDigits_spec hplaces h
  have hall : (fractionDigits places parts).length + (trimmed + zeros) = places + zeros := by
    rw [← Nat.add_assoc, hlength]
  have hsame := fractionDigits_digitsValue hdigits (getLast?_fractionDigits places parts)
    (Nat.add_pos_left hplaces zeros) hall
  rwa [Nat.pow_add, ← Nat.mul_assoc, hvalue] at hsame

end Fractions

/-! ## Decimals -/

section Decimals

variable {places : Nat}

/-- The digits before and behind the point, followed by the zeros left out, are those of all parts. -/
theorem exists_zeros_of_parts (hplaces : 0 < places) (parts : Nat) :
    ∃ zeros, (fractionDigits places (parts % Nat.pow 10 places)).length + zeros = places ∧
      digitsValue (Nat.toDigits 10 (parts / Nat.pow 10 places) ++
        fractionDigits places (parts % Nat.pow 10 places)) * 10 ^ zeros = parts := by
  obtain ⟨zeros, hlength, -, hvalue, -⟩ :=
    fractionDigits_spec hplaces (Nat.mod_lt parts (ten_pow_pos places))
  have hdivision := Nat.div_add_mod' parts (Nat.pow 10 places)
  refine ⟨zeros, hlength, ?_⟩
  rw [digitsValue_append, digitsValue_toDigits, Nat.add_mul, Nat.mul_assoc, ← Nat.pow_add, hlength,
    hvalue]
  exact hdivision

/-- A written decimal: digits, and behind a point the digits of a fraction, if there are any. -/
theorem exists_decimalDigits_eq (hplaces : 0 < places) (parts : Nat) :
    ∃ behind, decimalDigits places parts = Nat.toDigits 10 (parts / Nat.pow 10 places) ++ behind ∧
      Lexer.FractionShape behind ∧
        behind.tail = fractionDigits places (parts % Nat.pow 10 places) := by
  obtain ⟨zeros, -, -, -, hdigits⟩ :=
    fractionDigits_spec hplaces (Nat.mod_lt parts (ten_pow_pos places))
  unfold decimalDigits
  dsimp only
  split
  · rename_i hnone
    exact ⟨[], (List.append_nil _).symm, .none, hnone.symm⟩
  · exact ⟨_, rfl, .some hdigits, rfl⟩

/-- A decimal has the shape of a number token. -/
theorem unsignedShape_decimalDigits (hplaces : 0 < places) (parts : Nat) :
    Lexer.UnsignedShape (decimalDigits places parts) := by
  obtain ⟨behind, heq, hbehind, -⟩ := exists_decimalDigits_eq hplaces parts
  rw [heq]
  exact .mk Nat.toDigits_ne_nil (fun d hd => isDigit_of_mem_toDigits hd) hbehind

/-- A decimal is written the same in any number of places that it fits into. -/
theorem decimalDigits_mul (hplaces : 0 < places) (zeros parts : Nat) :
    decimalDigits (places + zeros) (parts * Nat.pow 10 zeros) = decimalDigits places parts := by
  unfold decimalDigits
  rw [ten_pow_add, Nat.mul_div_mul_right _ _ (ten_pow_pos zeros), Nat.mul_mod_mul_right,
    fractionDigits_mul hplaces (Nat.mod_lt parts (ten_pow_pos places))]

end Decimals

end Number

end Parlance
