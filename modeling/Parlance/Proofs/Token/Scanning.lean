import Parlance.Proofs.Token.LexicalGrammar
import Mathlib.Data.List.TakeWhile

/-!
# One piece is the longest lexeme

`scan` decides by the first character and computes how far a piece goes. Against the lexical grammar:

* what it cuts is a lexeme with the meaning of the piece (`lexeme_of_scan`);
* no lexeme at this place is longer, and one of the same length means the same
  (`covers_of_lexeme`);
* what it refuses no lexeme begins (`unmatched_of_scan`), with the fault of the first character
  (`scan_fault`).

The second statement goes through the rules one by one. A rule fixes the first character, and the
classes of characters do not overlap there, so the branch of `scan` is known; what remains is that the
extent of that branch is as large as the rule allows.
-/

namespace Parlance

/-- A token without its place. -/
def Token.content (token : Token) : TokenKind × String := (token.kind, token.text)

namespace Lexer

open Text

/-- What a piece means. -/
def Piece.meaning (piece : Piece) (lexeme : List Char) : Meaning :=
  (piece.token? lexeme .start).map Token.content

/-- A piece gives the token of its meaning, at its place. -/
theorem Piece.token?_eq (piece : Piece) (lexeme : List Char) (position : Position) :
    piece.token? lexeme position =
      (piece.meaning lexeme).map fun content => ⟨content.1, content.2, position⟩ := by
  cases piece <;> rfl

/-! ## Classes that do not overlap -/

/-- The codes of the blanks. -/
def blankCodes : List Nat :=
  [9, 10, 11, 12, 13, 0x20, 0x85, 0xA0, 0x1680, 0x2000, 0x2001, 0x2002, 0x2003, 0x2004, 0x2005,
   0x2006, 0x2007, 0x2008, 0x2009, 0x200A, 0x2028, 0x2029, 0x202F, 0x205F, 0x3000]

/-- There are few blanks, and their codes can be listed. -/
theorem mem_blankCodes {c : Char} (h : isBlank c = true) : c.toNat ∈ blankCodes := by
  simp only [isBlank, Bool.or_eq_true, Bool.and_eq_true, decide_eq_true_eq, beq_iff_eq] at h
  simp only [blankCodes, List.mem_cons, List.not_mem_nil, or_false]
  omega

/-- A character of a class is none that the class leaves out. -/
theorem ne_of_class {p : Char → Bool} {c d : Char} (hc : p c = true) (hd : p d = false) : c ≠ d := by
  rintro rfl
  rw [hc] at hd
  cases hd

/-- No blank is a letter. -/
theorem isLetter_of_isBlank {c : Char} (h : isBlank c = true) : isLetter c = false := by
  have hcodes : ∀ code ∈ blankCodes, inRanges letterRanges code = false := by decide +kernel
  exact hcodes c.toNat (mem_blankCodes h)

/-- A name does not begin with a blank. -/
theorem isBlank_of_beginsName {c : Char} (h : beginsName c = true) : isBlank c = false := by
  cases hblank : isBlank c with
  | false => rfl
  | true =>
    rw [beginsName, isLetter_of_isBlank hblank, Bool.false_or, beq_iff_eq] at h
    exact absurd h (ne_of_class hblank (by decide))

/-- Digits are those of one range, and no others of another script. -/
theorem isDigit_iff {c : Char} : c.isDigit = true ↔ 48 ≤ c.toNat ∧ c.toNat ≤ 57 := by
  simp only [Char.isDigit, Bool.and_eq_true, decide_eq_true_eq, ge_iff_le, UInt32.le_iff_toNat_le]
  rfl

/-- No digit is a blank. -/
theorem isBlank_of_isDigit {c : Char} (h : c.isDigit = true) : isBlank c = false := by
  have hcode := isDigit_iff.mp h
  cases hblank : isBlank c with
  | false => rfl
  | true =>
    have hmem := mem_blankCodes hblank
    simp only [blankCodes, List.mem_cons, List.not_mem_nil, or_false] at hmem
    omega

/-- A name does not begin with a digit. -/
theorem beginsName_of_isDigit {c : Char} (h : c.isDigit = true) : beginsName c = false := by
  have hcode := isDigit_iff.mp h
  have hletter : isLetter c = false := by
    rw [isLetter, letterRanges, inRanges, if_pos (by omega)]
  rw [beginsName, hletter, Bool.false_or, beq_eq_false_iff_ne]
  exact ne_of_class h (by decide)

/-! ## The branches of `scan` -/

section Branches

variable {c : Char} {cs : List Char}

/-- Blanks are scanned up to the end of their line. -/
theorem scan_blank (h : isBlank c = true) (hline : c ≠ '\n') :
    scan c cs = .ok (.skipped, (cs.takeWhile isInlineBlank).length) := by
  rw [scan, if_neg hline, if_pos h]

/-- A comment is scanned up to the end of its line. -/
theorem scan_comment :
    scan '/' ('/' :: cs) = .ok (.skipped, (('/' :: cs).takeWhile (· != '\n')).length) := by
  rw [scan, if_neg (by decide), if_neg (by decide), if_pos ⟨rfl, rfl⟩]

/-- A name is scanned as far as it goes, and then looked up among the reserved words. -/
theorem scan_name (h : beginsName c = true) :
    scan c cs = .ok (.plain (.ofName (String.ofList (c :: cs.takeWhile continuesName))),
      (cs.takeWhile continuesName).length) := by
  have hline : c ≠ '\n' := ne_of_class h (by decide)
  have hslash : c ≠ '/' := ne_of_class h (by decide)
  rw [scan, if_neg hline, isBlank_of_beginsName h, if_neg Bool.false_ne_true,
    if_neg fun hcomment => hslash hcomment.1, if_pos h]

/-- A digit begins a number. -/
theorem scan_digit (h : c.isDigit = true) : scan c cs = .ok (.plain .number, numberExtent cs) := by
  have hline : c ≠ '\n' := ne_of_class h (by decide)
  have hslash : c ≠ '/' := ne_of_class h (by decide)
  rw [scan, if_neg hline, isBlank_of_isDigit h, if_neg Bool.false_ne_true,
    if_neg fun hcomment => hslash hcomment.1, beginsName_of_isDigit h, if_neg Bool.false_ne_true,
    if_pos h]

/-- A minus begins a number if a digit follows it. -/
theorem scan_minus (h : cs.head?.any Char.isDigit = true) :
    scan '-' cs = .ok (.plain .number, numberExtent cs) := by
  rw [scan, if_neg (by decide), if_neg (by decide), if_neg (fun h => absurd h.1 (by decide)),
    if_neg (by decide), if_neg (by decide), if_pos rfl, if_pos h]

/-- A quotation mark begins a text if the text is closed. -/
theorem scan_quote {extent : Nat} (h : quotedExtent? cs = some extent) :
    scan '"' cs = .ok (.quoted, extent) := by
  rw [scan, if_neg (by decide), if_neg (by decide), if_neg (fun h => absurd h.1 (by decide)),
    if_neg (by decide), if_neg (by decide), if_neg (by decide), if_pos rfl, h]

/-- A mark is one character long. -/
theorem scan_mark {kind : TokenKind} (h : (c, kind) ∈ marks) : scan c cs = .ok (.plain kind, 0) := by
  simp only [marks, List.mem_cons, List.not_mem_nil, or_false, Prod.mk.injEq] at h
  rcases h with ⟨rfl, rfl⟩ | ⟨rfl, rfl⟩ | ⟨rfl, rfl⟩ | ⟨rfl, rfl⟩ <;> rfl

end Branches

/-! ## Names -/

/-- A name is told apart by its first character and the others. -/
theorem nameShape_cons_iff {c : Char} {cs : List Char} :
    NameShape (c :: cs) ↔ beginsName c = true ∧ ∀ d ∈ cs, continuesName d = true := by
  simp only [beginsName, continuesName, Bool.or_eq_true, beq_iff_eq, or_assoc]
  constructor
  · intro h
    cases h with
    | mk first others => exact ⟨first, others⟩
  · intro h
    exact .mk h.1 h.2

/-- Whether characters make a name. -/
def isName : List Char → Bool
  | [] => false
  | c :: cs => beginsName c && cs.all continuesName

/-- The test of a name says whether it has the shape of one. -/
theorem isName_iff {cs : List Char} : isName cs = true ↔ NameShape cs := by
  cases cs with
  | nil =>
    constructor
    · intro h
      cases h
    · intro h
      cases h
  | cons c cs => rw [isName, Bool.and_eq_true, List.all_eq_true, nameShape_cons_iff]

/-- Every reserved word has the shape of a name. -/
theorem nameShape_of_reserved {word : String} {kind : TokenKind}
    (h : (word, kind) ∈ reservedWords) : NameShape word.toList := by
  have hwords : (reservedWords.all fun entry => isName entry.1.toList) = true := by decide
  exact isName_iff.mp (List.all_eq_true.mp hwords (word, kind) h)

/-- A reserved word is of its own kind. -/
theorem ofName_of_reserved {word : String} {kind : TokenKind} (h : (word, kind) ∈ reservedWords) :
    TokenKind.ofName word = kind := by
  have hwords : ∀ entry ∈ reservedWords, TokenKind.ofName entry.1 = entry.2 := by decide
  exact hwords (word, kind) h

/-- Every other name is an identifier. -/
theorem ofName_of_free {name : String} (h : ∀ entry ∈ reservedWords, entry.1 ≠ name) :
    TokenKind.ofName name = .identifier := by
  have hnone : TokenKind.reserved.find? (fun kind => kind.description == name) = none := by
    refine List.find?_eq_none.mpr fun kind hkind => ?_
    have hentry : (kind.description, kind) ∈ reservedWords :=
      List.mem_map_of_mem (f := fun kind : TokenKind => (kind.description, kind)) hkind
    simpa using h _ hentry
  rw [TokenKind.ofName, hnone]
  rfl

/-- A character that stands nowhere in names stands in none. -/
theorem not_mem_of_nameShape {cs : List Char} (h : NameShape cs) {c : Char}
    (hbegins : beginsName c = false) (hcontinues : continuesName c = false) : c ∉ cs := by
  cases h with
  | @mk d ds first others =>
    obtain ⟨hfirst, hothers⟩ := nameShape_cons_iff.mp (.mk first others)
    intro hmem
    rcases List.mem_cons.mp hmem with rfl | hmem
    · exact absurd rfl (ne_of_class hfirst hbegins)
    · exact absurd rfl (ne_of_class (hothers c hmem) hcontinues)

/-! ## How far a run goes -/

theorem take_takeWhile (p : Char → Bool) (cs : List Char) :
    cs.take (cs.takeWhile p).length = cs.takeWhile p :=
  (List.prefix_iff_eq_take.mp (List.takeWhile_prefix p)).symm

/-- A run of a class at the front of a text is part of the longest one. -/
theorem length_le_takeWhile {p : Char → Bool} {run cs : List Char} (hfront : run <+: cs)
    (hrun : ∀ c ∈ run, p c = true) : run.length ≤ (cs.takeWhile p).length := by
  obtain ⟨rest, rfl⟩ := hfront
  rw [List.takeWhile_append_of_pos hrun, List.length_append]
  exact Nat.le_add_right _ _

/-! ## How far a number goes -/

/-- The digits, then a point with the digits behind it if there is one. -/
theorem exists_take_numberExtent (cs : List Char) :
    ∃ fraction, FractionShape fraction ∧
      cs.take (numberExtent cs) = cs.takeWhile Char.isDigit ++ fraction := by
  simp only [numberExtent]
  split
  · rename_i fraction hdrop
    have hdigits : ∀ d ∈ fraction.takeWhile Char.isDigit, d.isDigit = true :=
      fun d hd => List.mem_takeWhile_imp hd
    refine ⟨'.' :: fraction.takeWhile Char.isDigit, .some hdigits, ?_⟩
    rw [Nat.add_assoc, List.take_add, take_takeWhile, hdrop, Nat.add_comm 1, List.take_succ_cons,
      take_takeWhile]
  · exact ⟨[], .none, by rw [take_takeWhile, List.append_nil]⟩

/-- A number goes at least as far as its first digits. -/
theorem takeWhile_le_numberExtent (cs : List Char) :
    (cs.takeWhile Char.isDigit).length ≤ numberExtent cs := by
  simp only [numberExtent]
  split <;> omega

/-- No number at the front of a text goes further. -/
theorem length_le_numberExtent {whole fraction cs : List Char}
    (hwhole : ∀ d ∈ whole, d.isDigit = true) (hfraction : FractionShape fraction)
    (hfront : whole ++ fraction <+: cs) : (whole ++ fraction).length ≤ numberExtent cs := by
  cases hfraction with
  | none =>
    rw [List.append_nil] at hfront ⊢
    exact Nat.le_trans (length_le_takeWhile hfront hwhole) (takeWhile_le_numberExtent cs)
  | @some digits hdigits =>
    -- The point is no digit, so the whole part ends before it, as it does for the lexer.
    obtain ⟨rest, rfl⟩ := hfront
    have hrun : ((whole ++ '.' :: digits) ++ rest).takeWhile Char.isDigit = whole := by
      rw [List.append_assoc, List.takeWhile_append_of_pos hwhole, List.cons_append,
        List.takeWhile_cons_of_neg (by decide), List.append_nil]
    have hextent : numberExtent ((whole ++ '.' :: digits) ++ rest) =
        whole.length + 1 + ((digits ++ rest).takeWhile Char.isDigit).length := by
      rw [numberExtent, hrun, List.append_assoc, List.drop_left]
      rfl
    have hle := length_le_takeWhile (List.prefix_append digits rest) hdigits
    rw [hextent, List.length_append, List.length_cons]
    omega

/-- A number holds no character but digits, the point and its sign. -/
theorem not_mem_of_unsignedShape {cs : List Char} (h : UnsignedShape cs) {c : Char}
    (hdigit : c.isDigit = false) (hpoint : c ≠ '.') : c ∉ cs := by
  cases h with
  | @mk whole fraction _ hwhole hfraction =>
    intro hmem
    rcases List.mem_append.mp hmem with hmem | hmem
    · exact absurd rfl (ne_of_class (hwhole c hmem) hdigit)
    · cases hfraction with
      | none => cases hmem
      | some hdigits =>
        rcases List.mem_cons.mp hmem with rfl | hmem
        · exact hpoint rfl
        · exact absurd rfl (ne_of_class (hdigits c hmem) hdigit)

/-! ## How far a text literal goes -/

/-- A character behind a backslash counts as one, whatever it is. -/
theorem quotedBody_escaped (c : Char) {written meant : List Char} (h : QuotedBody written meant) :
    QuotedBody ('\\' :: c :: written) (escaped c :: meant) := by
  unfold escaped
  split
  · exact .newline h
  · exact .carriageReturn h
  · exact .tab h
  · rename_i hn hr ht
    exact .other hn hr ht h

/-- A literal is closed behind its body, whatever follows. -/
theorem quotedExtent?_of_body {written meant : List Char} (h : QuotedBody written meant)
    (rest : List Char) : quotedExtent? (written ++ '"' :: rest) = some (written.length + 1) := by
  induction h with
  | nil => rfl
  | plain quote backslash lineEnd _ ih =>
    rw [List.cons_append, quotedExtent?.eq_5 _ _ quote lineEnd fun _ _ h _ => backslash h, ih]
    rfl
  | newline _ ih => rw [List.cons_append, List.cons_append, quotedExtent?, ih]; rfl
  | carriageReturn _ ih => rw [List.cons_append, List.cons_append, quotedExtent?, ih]; rfl
  | tab _ ih => rw [List.cons_append, List.cons_append, quotedExtent?, ih]; rfl
  | other _ _ _ _ ih => rw [List.cons_append, List.cons_append, quotedExtent?, ih]; rfl

/-- What is taken up to the closing quote is a body. -/
theorem exists_body_of_quotedExtent? {cs : List Char} {extent : Nat}
    (h : quotedExtent? cs = some extent) :
    ∃ written meant, QuotedBody written meant ∧ cs.take extent = written ++ ['"'] := by
  induction cs using quotedExtent?.induct generalizing extent with
  | case1 => cases h
  | case2 cs =>
    cases h
    exact ⟨[], [], .nil, rfl⟩
  | case3 cs => cases h
  | case4 c cs ih =>
    rw [quotedExtent?, Option.map_eq_some_iff] at h
    obtain ⟨inner, hinner, rfl⟩ := h
    obtain ⟨written, meant, hbody, htake⟩ := ih hinner
    refine ⟨_, _, quotedBody_escaped c hbody, ?_⟩
    rw [List.take_succ_cons, List.take_succ_cons, htake]
    rfl
  | case5 c cs quote lineEnd backslash ih =>
    rw [quotedExtent?.eq_5 _ _ quote lineEnd backslash, Option.map_eq_some_iff] at h
    obtain ⟨inner, hinner, rfl⟩ := h
    obtain ⟨written, meant, hbody, htake⟩ := ih hinner
    -- A backslash with nothing behind it does not get here: nothing would close the literal.
    have hbackslash : c ≠ '\\' := by
      rintro rfl
      cases cs with
      | nil => cases hinner
      | cons d cs => exact backslash d cs rfl rfl
    refine ⟨_, _, .plain quote hbackslash lineEnd hbody, ?_⟩
    rw [List.take_succ_cons, htake]
    rfl

/-- Decoding gives what the body means. -/
theorem unescape_of_body {written meant : List Char} (h : QuotedBody written meant) :
    unescape written = meant := by
  induction h with
  | nil => rfl
  | plain _ backslash _ _ ih => rw [unescape.eq_2 _ _ fun _ _ h _ => backslash h, ih]
  | newline _ ih => rw [unescape, ih]; rfl
  | carriageReturn _ ih => rw [unescape, ih]; rfl
  | tab _ ih => rw [unescape, ih]; rfl
  | other hn hr ht _ ih => rw [unescape, ih, escaped.eq_4 _ hn hr ht]

/-! ## A piece is a lexeme -/

section Pieces

variable {c : Char} {cs : List Char}

/-- Blanks as they are scanned are a lexeme without a meaning. -/
theorem lexeme_blank (h : isBlank c = true) (hline : c ≠ '\n') :
    Lexeme (c :: cs.takeWhile isInlineBlank) none := by
  refine .blanks (List.cons_ne_nil _ _) ?_
  intro d hd
  rcases List.mem_cons.mp hd with rfl | hd
  · exact ⟨h, hline⟩
  · simpa [isInlineBlank] using List.mem_takeWhile_imp hd

/-- A comment as it is scanned is a lexeme without a meaning. -/
theorem lexeme_comment : Lexeme ('/' :: ('/' :: cs).takeWhile (· != '\n')) none := by
  rw [List.takeWhile_cons_of_pos (by decide)]
  refine .comment ?_
  intro hmem
  simpa using List.mem_takeWhile_imp hmem

/-- A name is a reserved word or it is free. -/
theorem lexeme_name {name : List Char} (h : NameShape name) :
    Lexeme name (some (.ofName (String.ofList name), String.ofList name)) := by
  by_cases hreserved : ∃ kind, (String.ofList name, kind) ∈ reservedWords
  · obtain ⟨kind, hmem⟩ := hreserved
    have hlexeme := Lexeme.reserved hmem
    rwa [← ofName_of_reserved hmem, String.toList_ofList] at hlexeme
  · have hfree : ∀ entry ∈ reservedWords, entry.1 ≠ String.ofList name := by
      rintro ⟨_, kind⟩ hmem rfl
      exact hreserved ⟨kind, hmem⟩
    rw [ofName_of_free hfree]
    exact .identifier h hfree

/-- Behind a digit, what is scanned has the shape of a number. -/
theorem unsignedShape_digit (h : c.isDigit = true) :
    UnsignedShape (c :: cs.take (numberExtent cs)) := by
  obtain ⟨fraction, hfraction, htake⟩ := exists_take_numberExtent cs
  rw [htake, ← List.cons_append]
  refine .mk (List.cons_ne_nil _ _) (fun d hd => ?_) hfraction
  rcases List.mem_cons.mp hd with rfl | hd
  · exact h
  · exact List.mem_takeWhile_imp hd

/-- Behind a minus, what is scanned has the shape of a number. -/
theorem unsignedShape_minus (h : cs.head?.any Char.isDigit = true) :
    UnsignedShape (cs.take (numberExtent cs)) := by
  obtain ⟨fraction, hfraction, htake⟩ := exists_take_numberExtent cs
  rw [htake]
  refine .mk ?_ (fun d hd => List.mem_takeWhile_imp hd) hfraction
  cases cs with
  | nil => cases h
  | cons d cs =>
    rw [List.takeWhile_cons_of_pos (by simpa using h)]
    exact List.cons_ne_nil _ _

/-- A text between quotation marks means its body, unescaped. -/
theorem meaning_quoted {written meant : List Char} (h : QuotedBody written meant) :
    Piece.quoted.meaning ('"' :: (written ++ ['"'])) = some (.text, String.ofList meant) := by
  simp only [Piece.meaning, Piece.token?, List.tail_cons, List.dropLast_concat, unescape_of_body h]
  rfl

/-- A text that is closed is a lexeme with its meaning. -/
theorem lexeme_quoted {extent : Nat} (h : quotedExtent? cs = some extent) :
    Lexeme ('"' :: cs.take extent) (Piece.quoted.meaning ('"' :: cs.take extent)) := by
  obtain ⟨written, meant, hbody, htake⟩ := exists_body_of_quotedExtent? h
  rw [htake, meaning_quoted hbody]
  exact .quoted hbody

theorem mem_marks {kind : TokenKind} (h : markKind? c = some kind) : (c, kind) ∈ marks := by
  unfold markKind? at h
  split at h <;> first | (cases h; decide) | cases h

end Pieces

/-- What is cut is a lexeme, with the meaning of the piece. -/
theorem lexeme_of_scan {c : Char} {cs : List Char} {piece : Piece} {extent : Nat}
    (h : scan c cs = .ok (piece, extent)) :
    Lexeme (c :: cs.take extent) (piece.meaning (c :: cs.take extent)) := by
  unfold scan at h
  split at h
  · rename_i hline
    cases h
    subst hline
    exact .lineEnd
  split at h
  · rename_i hline hblank
    cases h
    rw [take_takeWhile]
    exact lexeme_blank hblank hline
  split at h
  · rename_i hcomment
    cases h
    obtain ⟨rfl, hsecond⟩ := hcomment
    obtain ⟨rest, rfl⟩ := List.head?_eq_some_iff.mp hsecond
    rw [take_takeWhile]
    exact lexeme_comment
  split at h
  · rename_i hname
    cases h
    rw [take_takeWhile]
    exact lexeme_name (nameShape_cons_iff.mpr ⟨hname, fun d hd => List.mem_takeWhile_imp hd⟩)
  split at h
  · rename_i hdigit
    cases h
    exact .unsigned (unsignedShape_digit hdigit)
  split at h
  · rename_i hminus
    subst hminus
    split at h
    · rename_i hdigit
      cases h
      exact .negative (unsignedShape_minus hdigit)
    · cases h
  split at h
  · rename_i hquote
    subst hquote
    split at h
    · rename_i hextent
      cases h
      exact lexeme_quoted hextent
    · cases h
  split at h
  · rename_i kind hmark
    cases h
    exact .mark (mem_marks hmark)
  · cases h

/-- What is refused is refused for its first character. -/
theorem scan_fault {c : Char} {cs : List Char} {fault : LexicalFault}
    (h : scan c cs = .error fault) : fault = refusal c := by
  unfold scan at h
  split at h
  · cases h
  split at h
  · cases h
  split at h
  · cases h
  split at h
  · cases h
  split at h
  · cases h
  split at h
  · rename_i hminus
    subst hminus
    split at h <;> cases h
    rfl
  split at h
  · rename_i hquote
    subst hquote
    split at h <;> cases h
    rfl
  · rename_i hminus hquote
    split at h <;> cases h
    rw [refusal, if_neg hquote, if_neg hminus]

/-! ## No lexeme is longer -/

section Longest

variable {c : Char} {cs : List Char}

/-- A piece goes as far as a lexeme does, and means the same where they end together. -/
def Covers (c : Char) (cs lexeme : List Char) (meaning : Meaning) : Prop :=
  ∃ piece extent, scan c cs = .ok (piece, extent) ∧ lexeme.length ≤ extent + 1 ∧
    (lexeme = c :: cs.take extent → meaning = piece.meaning lexeme)

/-- No name at this place is longer than the one that is scanned. -/
theorem covers_name {name : List Char} {kind : TokenKind} (hname : NameShape name)
    (hfront : name <+: c :: cs) (hkind : TokenKind.ofName (String.ofList name) = kind) :
    Covers c cs name (some (kind, String.ofList name)) := by
  cases hname with
  | @mk d ds first others =>
    obtain ⟨hbegins, hcontinues⟩ := nameShape_cons_iff.mp (NameShape.mk first others)
    obtain ⟨rfl, hrun⟩ := List.cons_prefix_cons.mp hfront
    refine ⟨_, _, scan_name hbegins, ?_, fun heq => ?_⟩
    · exact Nat.succ_le_succ (length_le_takeWhile hrun hcontinues)
    · rw [take_takeWhile] at heq
      rw [← heq, hkind]
      rfl

/-- No number at this place is longer than the one that is scanned. -/
theorem covers_unsigned {number : List Char} (hnumber : UnsignedShape number)
    (hfront : number <+: c :: cs) : Covers c cs number (some (.number, String.ofList number)) := by
  cases hnumber with
  | @mk whole fraction nonempty hwhole hfraction =>
    obtain ⟨d, ds, rfl⟩ := List.exists_cons_of_ne_nil nonempty
    rw [List.cons_append] at hfront
    obtain ⟨rfl, hrest⟩ := List.cons_prefix_cons.mp hfront
    refine ⟨_, _, scan_digit (hwhole d List.mem_cons_self), ?_, fun _ => rfl⟩
    exact Nat.succ_le_succ
      (length_le_numberExtent (fun e he => hwhole e (List.mem_cons_of_mem _ he)) hfraction hrest)

/-- No negative number at this place is longer than the one that is scanned. -/
theorem covers_negative {number : List Char} (hnumber : UnsignedShape number)
    (hfront : '-' :: number <+: c :: cs) :
    Covers c cs ('-' :: number) (some (.number, String.ofList ('-' :: number))) := by
  obtain ⟨rfl, hrest⟩ := List.cons_prefix_cons.mp hfront
  cases hnumber with
  | @mk whole fraction nonempty hwhole hfraction =>
    have hextent := length_le_numberExtent hwhole hfraction hrest
    obtain ⟨d, ds, rfl⟩ := List.exists_cons_of_ne_nil nonempty
    have hdigit : cs.head?.any Char.isDigit = true := by
      obtain ⟨rest, rfl⟩ := hrest
      exact hwhole d List.mem_cons_self
    exact ⟨_, _, scan_minus hdigit, Nat.succ_le_succ hextent, fun _ => rfl⟩

/-- There is only one text that begins at a quotation mark. -/
theorem covers_quoted {written meant : List Char} (hbody : QuotedBody written meant)
    (hfront : '"' :: (written ++ ['"']) <+: c :: cs) :
    Covers c cs ('"' :: (written ++ ['"'])) (some (.text, String.ofList meant)) := by
  obtain ⟨rfl, rest, rfl⟩ := List.cons_prefix_cons.mp hfront
  have hextent : quotedExtent? (written ++ ['"'] ++ rest) = some (written.length + 1) := by
    rw [List.append_assoc]
    exact quotedExtent?_of_body hbody rest
  refine ⟨_, _, scan_quote hextent, ?_, fun _ => (meaning_quoted hbody).symm⟩
  simp only [List.length_cons, List.length_append, List.length_nil, Nat.le_refl]

/-- No rule goes further than the piece, and none that goes as far means another token. -/
theorem covers_of_lexeme {lexeme : List Char} {meaning : Meaning} (h : Lexeme lexeme meaning)
    (hfront : lexeme <+: c :: cs) : Covers c cs lexeme meaning := by
  cases h with
  | blanks nonempty hblank =>
    obtain ⟨d, ds, rfl⟩ := List.exists_cons_of_ne_nil nonempty
    obtain ⟨rfl, hrun⟩ := List.cons_prefix_cons.mp hfront
    obtain ⟨hfirst, hline⟩ := hblank d List.mem_cons_self
    have hothers : ∀ e ∈ ds, isInlineBlank e = true := by
      intro e he
      simpa [isInlineBlank] using hblank e (List.mem_cons_of_mem _ he)
    exact ⟨_, _, scan_blank hfirst hline, Nat.succ_le_succ (length_le_takeWhile hrun hothers),
      fun _ => rfl⟩
  | lineEnd =>
    obtain ⟨rfl, -⟩ := List.cons_prefix_cons.mp hfront
    exact ⟨.lineEnd, 0, rfl, Nat.le_refl _, fun _ => rfl⟩
  | @comment body hbody =>
    obtain ⟨rfl, hrest⟩ := List.cons_prefix_cons.mp hfront
    have hrun : ∀ e ∈ '/' :: body, (e != '\n') = true := by
      intro e he
      rcases List.mem_cons.mp he with rfl | he
      · decide
      · exact bne_iff_ne.mpr fun heq => hbody (heq ▸ he)
    have hle := length_le_takeWhile hrest hrun
    obtain ⟨rest, rfl⟩ := hrest
    exact ⟨_, _, scan_comment, Nat.succ_le_succ hle, fun _ => rfl⟩
  | mark hmark =>
    obtain ⟨rfl, -⟩ := List.cons_prefix_cons.mp hfront
    exact ⟨_, _, scan_mark hmark, Nat.le_refl _, fun _ => rfl⟩
  | @reserved word kind hword =>
    have hcovers := covers_name (nameShape_of_reserved hword) hfront
      (by rw [String.ofList_toList, ofName_of_reserved hword])
    rwa [String.ofList_toList] at hcovers
  | identifier hname hfree => exact covers_name hname hfront (ofName_of_free hfree)
  | unsigned hnumber => exact covers_unsigned hnumber hfront
  | negative hnumber => exact covers_negative hnumber hfront
  | quoted hbody => exact covers_quoted hbody hfront

/-- What is cut is the longest lexeme. -/
theorem longest_of_scan {piece : Piece} {extent : Nat} (h : scan c cs = .ok (piece, extent)) :
    Longest (c :: cs) (c :: cs.take extent) (piece.meaning (c :: cs.take extent)) where
  accepted := lexeme_of_scan h
  front := List.cons_prefix_cons.mpr ⟨rfl, List.take_prefix extent cs⟩
  longest hother hfront := by
    obtain ⟨piece', extent', hscan, hlength, -⟩ := covers_of_lexeme hother hfront
    rw [h] at hscan
    cases hscan
    have hle := hfront.length_le
    rw [List.length_cons] at hle
    rw [List.length_cons, List.length_take]
    omega

/-- What is refused no lexeme begins. -/
theorem unmatched_of_scan {fault : LexicalFault} (h : scan c cs = .error fault) :
    Unmatched (c :: cs) := by
  intro lexeme meaning hlexeme hfront
  obtain ⟨piece, extent, hscan, -⟩ := covers_of_lexeme hlexeme hfront
  rw [h] at hscan
  cases hscan

end Longest

/-! ## Lexemes have one meaning -/

/-- A lexeme has at least one character, so scanning comes to an end. -/
theorem Lexeme.ne_nil {lexeme : List Char} {meaning : Meaning} (h : Lexeme lexeme meaning) :
    lexeme ≠ [] := by
  cases h with
  | blanks nonempty => exact nonempty
  | reserved hword =>
    intro hnil
    have hname := nameShape_of_reserved hword
    rw [hnil] at hname
    cases hname
  | identifier hname =>
    intro hnil
    rw [hnil] at hname
    cases hname
  | unsigned hnumber =>
    cases hnumber with
    | mk nonempty => exact List.append_ne_nil_of_left_ne_nil nonempty _
  | _ => exact List.cons_ne_nil _ _

/-- The rules do not compete: a lexeme alone is a piece, and a piece has one meaning. -/
theorem Lexeme.meaning_unique {lexeme : List Char} {first second : Meaning}
    (hfirst : Lexeme lexeme first) (hsecond : Lexeme lexeme second) : first = second := by
  obtain ⟨c, cs, rfl⟩ := List.exists_cons_of_ne_nil hfirst.ne_nil
  obtain ⟨piece, extent, hscan, hlength, hmeaning⟩ := covers_of_lexeme hfirst (List.prefix_refl _)
  obtain ⟨piece', extent', hscan', -, hmeaning'⟩ := covers_of_lexeme hsecond (List.prefix_refl _)
  rw [hscan] at hscan'
  cases hscan'
  have hwhole : c :: cs = c :: cs.take extent := by
    rw [List.take_of_length_le (Nat.le_of_succ_le_succ hlength)]
  rw [hmeaning hwhole, hmeaning' hwhole]

end Lexer

end Parlance
