import Parlance.Proofs.Program.Relocation
import Parlance.Proofs.Token.Splitting

/-!
# Texts put together at a line end

Two texts are read one behind the other as each is read alone, if a line end stands where they meet
(`tokenize_append`): no piece goes over a line end but a text literal, and a literal that is closed
before the meeting point stays closed. The tokens of the second text stand as many lines lower as the
first one has line ends.

`Seam` is the condition on the meeting point, and `scan_append` what it means for one piece.
-/

namespace Parlance

/-! ## Lower lines -/

namespace Position

/-- The place some lines below. -/
def below (lines : Nat) (position : Position) : Position := ⟨position.line + lines, position.column⟩

/-- A character moves a place alike on every line. -/
theorem next_below (lines : Nat) (position : Position) (c : Char) :
    (position.below lines).next c = (position.next c).below lines := by
  unfold next
  split
  · simp [below, Nat.add_right_comm]
  · rfl

/-- Characters move a place alike on every line. -/
theorem after_below (lines : Nat) (cs : List Char) (position : Position) :
    (position.below lines).after cs = (position.after cs).below lines := by
  induction cs generalizing position with
  | nil => rfl
  | cons c cs ih => rw [after_cons, after_cons, next_below, ih]

end Position

/-- Behind whole lines a text stands at the beginning of a line. -/
theorem placeAfter_of_lineEnd {cs : List Char} (h : cs = [] ∨ cs.getLast? = some '\n') :
    placeAfter cs = Position.start.below (cs.count '\n') := by
  rcases h with rfl | h
  · rfl
  · obtain ⟨front, rfl⟩ := List.getLast?_eq_some_iff.mp h
    simp [placeAfter, Position.below, Position.start]

namespace Lexer

open Text

variable {c : Char} {cs rest : List Char}

/-! ## A piece ends within its text -/

/-- A number ends within the text. -/
theorem numberExtent_le (cs : List Char) : numberExtent cs ≤ cs.length := by
  have hwhole : (cs.takeWhile Char.isDigit).length ≤ cs.length :=
    (List.takeWhile_prefix _).length_le
  unfold numberExtent
  dsimp only
  split
  · rename_i fraction hpoint
    have hlength := congrArg List.length hpoint
    have hfraction : (fraction.takeWhile Char.isDigit).length ≤ fraction.length :=
      (List.takeWhile_prefix _).length_le
    rw [List.length_drop, List.length_cons] at hlength
    omega
  · exact hwhole

/-- A closed text ends within the text. -/
theorem quotedExtent?_le {extent : Nat} (h : quotedExtent? cs = some extent) :
    extent ≤ cs.length := by
  obtain ⟨written, meant, hbody, htake⟩ := exists_body_of_quotedExtent? h
  have hexact : quotedExtent? cs = some (written.length + 1) := by
    rw [← List.take_append_drop extent cs, htake, List.append_assoc]
    exact quotedExtent?_of_body hbody _
  have hlength := congrArg List.length htake
  rw [h, Option.some.injEq] at hexact
  rw [List.length_take, List.length_append, List.length_singleton] at hlength
  omega

/-- What is scanned lies within the text. -/
theorem extent_le_of_scan {piece : Piece} {extent : Nat} (h : scan c cs = .ok (piece, extent)) :
    extent ≤ cs.length := by
  have hrun : ∀ p : Char → Bool, (cs.takeWhile p).length ≤ cs.length := fun p =>
    (List.takeWhile_prefix p).length_le
  unfold scan at h
  split at h
  · cases h
    exact Nat.zero_le _
  split at h
  · cases h
    exact hrun _
  split at h
  · cases h
    exact hrun _
  split at h
  · cases h
    exact hrun _
  split at h
  · cases h
    exact numberExtent_le cs
  split at h
  · split at h
    · cases h
      exact numberExtent_le cs
    · cases h
  split at h
  · split at h
    · rename_i hextent
      cases h
      exact quotedExtent?_le hextent
    · cases h
  split at h
  · cases h
    exact Nat.zero_le _
  · cases h

/-! ## One piece before a seam -/

/-- A line end stands on one side of the place where two texts meet. -/
def Seam (cs rest : List Char) : Prop := cs.getLast? = some '\n' ∨ rest.head? = some '\n'

/-- A seam is one for what follows a character of the same line. -/
theorem Seam.of_cons (h : Seam (c :: cs) rest) (hline : c ≠ '\n') : Seam cs rest := by
  rcases h with h | h
  · cases cs with
    | nil => exact absurd (Option.some.inj h) hline
    | cons d ds => exact .inl (by rwa [List.getLast?_cons_cons] at h)
  · exact .inr h

/-- What is left of a text is at its end, or meets the other one at the same seam. -/
theorem Seam.drop (h : Seam cs rest) (n : Nat) : cs.drop n = [] ∨ Seam (cs.drop n) rest := by
  rcases h with h | h
  · by_cases hn : cs.length ≤ n
    · exact .inl (List.drop_eq_nil_of_le hn)
    · refine .inr (.inl ?_)
      rw [List.getLast?_drop, if_neg hn, h]
  · exact .inr (.inr h)

/-- A run of characters that leaves out the line end does not go over a seam. -/
theorem Seam.takeWhile (h : Seam cs rest) {p : Char → Bool} (hp : p '\n' = false) :
    (cs ++ rest).takeWhile p = cs.takeWhile p := by
  rw [List.takeWhile_append]
  split
  · rename_i hall
    have hcs : cs.takeWhile p = cs := (List.takeWhile_prefix p).eq_of_length hall
    rcases h with h | h
    · have hlast : p '\n' = true := List.mem_takeWhile_imp (hcs.symm ▸ List.mem_of_getLast? h)
      rw [hp] at hlast
      cases hlast
    · obtain ⟨others, rfl⟩ := List.head?_eq_some_iff.mp h
      rw [List.takeWhile_cons_of_neg (by simp [hp]), List.append_nil, hcs]
  · rfl

/-- The next character is of a class that leaves out the line end, or not, whatever is behind a seam. -/
theorem Seam.any_head? (h : Seam cs rest) {p : Char → Bool} (hp : p '\n' = false) :
    (cs ++ rest).head?.any p = cs.head?.any p := by
  cases cs with
  | cons d ds => rfl
  | nil =>
    rcases h with h | h
    · cases h
    · rw [List.nil_append, h]
      exact hp

/-- No number goes on behind a seam. -/
theorem Seam.numberExtent (h : Seam cs rest) : numberExtent (cs ++ rest) = numberExtent cs := by
  have hwhole : (cs ++ rest).takeWhile Char.isDigit = cs.takeWhile Char.isDigit := h.takeWhile rfl
  have hlength : (cs.takeWhile Char.isDigit).length ≤ cs.length :=
    (List.takeWhile_prefix _).length_le
  unfold Lexer.numberExtent
  rw [hwhole]
  dsimp only
  rw [List.drop_append_of_le_length hlength]
  rcases h.drop (cs.takeWhile Char.isDigit).length with hnil | hseam
  · -- The digits reach the seam, so a line end follows them.
    rcases h with h | h
    · have hcs : cs.takeWhile Char.isDigit = cs :=
        (List.takeWhile_prefix _).eq_of_length_le (List.drop_eq_nil_iff.mp hnil)
      have hlast := List.mem_takeWhile_imp (hcs.symm ▸ List.mem_of_getLast? h)
      cases hlast
    · obtain ⟨others, rfl⟩ := List.head?_eq_some_iff.mp h
      rw [hnil]
      rfl
  · generalize cs.drop (cs.takeWhile Char.isDigit).length = left at hseam
    cases left with
    | nil =>
      obtain h | h := hseam
      · cases h
      · obtain ⟨others, rfl⟩ := List.head?_eq_some_iff.mp h
        rfl
    | cons d ds =>
      by_cases hpoint : d = '.'
      · subst hpoint
        have hfraction := (hseam.of_cons (by decide)).takeWhile (p := Char.isDigit) rfl
        simp only [List.cons_append, hfraction]
      · simp [hpoint]

/-- A literal that is closed stays closed. -/
theorem quotedExtent?_append {extent : Nat} (h : quotedExtent? cs = some extent) :
    quotedExtent? (cs ++ rest) = some extent := by
  induction cs using quotedExtent?.induct generalizing extent with
  | case1 => cases h
  | case2 cs => exact h
  | case3 cs => cases h
  | case4 c cs ih =>
    rw [quotedExtent?, Option.map_eq_some_iff] at h
    obtain ⟨inner, hinner, rfl⟩ := h
    rw [List.cons_append, List.cons_append, quotedExtent?, ih hinner]
    rfl
  | case5 c cs quote lineEnd backslash ih =>
    rw [quotedExtent?.eq_5 _ _ quote lineEnd backslash, Option.map_eq_some_iff] at h
    obtain ⟨inner, hinner, rfl⟩ := h
    have hbackslash : ∀ d ds, c = '\\' → cs ++ rest = d :: ds → False := by
      intro d ds hc
      cases cs with
      | nil => cases hinner
      | cons e es => exact fun _ => backslash e es hc rfl
    rw [List.cons_append, quotedExtent?.eq_5 _ _ quote lineEnd hbackslash, ih hinner]
    rfl

/-- A piece is cut from a text as it is cut when another text follows behind a seam. -/
theorem scan_append {result : Piece × Nat} (hseam : Seam (c :: cs) rest)
    (h : scan c cs = .ok result) : scan c (cs ++ rest) = .ok result := by
  by_cases hline : c = '\n'
  · rw [scan, if_pos hline] at h ⊢
    exact h
  · have hcs := hseam.of_cons hline
    have hslash : (cs ++ rest).head? = some '/' ↔ cs.head? = some '/' := by
      have hany := hcs.any_head? (p := (· == '/')) rfl
      cases hfirst : (cs ++ rest).head? <;> cases hfirst' : cs.head? <;> simp_all
    by_cases hquote : c = '"'
    · subst hquote
      cases hextent : quotedExtent? cs with
      | none =>
        have hblank : isBlank '"' = false := by decide
        have hname : beginsName '"' = false := by decide
        have hopen : scan '"' cs = .error .unterminatedText := by simp [scan, hextent, hblank, hname]
        rw [hopen] at h
        cases h
      | some extent =>
        rw [scan_quote hextent] at h
        rw [scan_quote (quotedExtent?_append hextent)]
        exact h
    · -- Every other rule looks at a run or at the next character, which are the same.
      have hcomment : (cs ++ rest).takeWhile (· != '\n') = cs.takeWhile (· != '\n') :=
        hcs.takeWhile rfl
      unfold scan at h ⊢
      rw [if_neg hquote] at h ⊢
      simpa only [hcs.takeWhile (p := isInlineBlank) rfl, hcomment,
        hcs.takeWhile (p := continuesName) rfl, hcs.any_head? (p := Char.isDigit) rfl,
        hcs.numberExtent, hslash] using h

/-! ## All pieces -/

/-- What holds of marks, reserved words, names and literals holds of the kind of every lexeme. -/
theorem Lexeme.kind_has {P : TokenKind → Prop} {lexeme : List Char} {content : TokenKind × String}
    (h : Lexeme lexeme (some content)) (hmarks : ∀ entry ∈ marks, P entry.2)
    (hwords : ∀ entry ∈ reservedWords, P entry.2)
    (hothers : ∀ kind ∈ [TokenKind.identifier, .number, .text], P kind) : P content.1 := by
  cases h with
  | mark hmark => exact hmarks _ hmark
  | reserved hword => exact hwords _ hword
  | identifier _ _ => exact hothers _ (by simp)
  | unsigned _ => exact hothers _ (by simp)
  | negative _ => exact hothers _ (by simp)
  | quoted _ => exact hothers _ (by simp)

/-- No lexeme means the end of the input. -/
theorem Lexeme.kind_ne_endOfInput {lexeme : List Char} {content : TokenKind × String}
    (h : Lexeme lexeme (some content)) : content.1 ≠ .endOfInput :=
  h.kind_has (P := (· ≠ .endOfInput)) (by decide) (by decide) (by decide)

/-- The end of the input is no token of the text. -/
theorem kind_ne_endOfInput_of_scan {piece : Piece} {extent : Nat} {position : Position}
    {token : Token} (h : scan c cs = .ok (piece, extent))
    (htoken : token ∈ piece.token? (c :: cs.take extent) position) : token.kind ≠ .endOfInput := by
  rw [Piece.token?_eq, Option.mem_def, Option.map_eq_some_iff] at htoken
  obtain ⟨content, hcontent, rfl⟩ := htoken
  have hlexeme := lexeme_of_scan h
  rw [hcontent] at hlexeme
  exact hlexeme.kind_ne_endOfInput

/-- The last token is the end of the input, behind the whole text; no other one is. -/
theorem exists_of_tokensFrom {position : Position} {tokens : List Token}
    (h : tokensFrom position cs = .ok tokens) :
    ∃ front, tokens = front ++ [⟨.endOfInput, "", position.after cs⟩] ∧
      ∀ token ∈ front, token.kind ≠ .endOfInput := by
  induction position, cs using tokensFrom.induct generalizing tokens with
  | case1 position =>
    rw [tokensFrom] at h
    cases h
    exact ⟨[], rfl, by simp⟩
  | case2 position c cs fault hscan =>
    rw [tokensFrom, hscan] at h
    cases h
  | case3 position c cs piece extent hscan lexeme error herror =>
    rw [tokensFrom_cons_of_ok hscan, herror] at h
    cases h
  | case4 position c cs piece extent hscan lexeme others hothers =>
    rename_i ih
    rw [tokensFrom_cons_of_ok hscan, hothers] at h
    cases h
    obtain ⟨front, rfl, hfront⟩ := ih hothers
    refine ⟨(piece.token? (c :: cs.take extent) position).toList ++ front, ?_, ?_⟩
    · rw [← Position.after_append, List.cons_append, List.take_append_drop, List.append_assoc]
    · intro token htoken
      rcases List.mem_append.mp htoken with htoken | htoken
      · exact kind_ne_endOfInput_of_scan hscan (Option.mem_toList.mp htoken)
      · exact hfront token htoken

/-- A text is read on behind a seam: its tokens, then those of what follows. -/
theorem tokensFrom_append {position : Position} {front : List Token} {last : Token}
    (hseam : cs = [] ∨ Seam cs rest) (h : tokensFrom position cs = .ok (front ++ [last])) :
    tokensFrom position (cs ++ rest) = (tokensFrom (position.after cs) rest).map (front ++ ·) := by
  induction position, cs using tokensFrom.induct generalizing front with
  | case1 position =>
    rw [tokensFrom] at h
    have hfront : [] ++ [_] = front ++ [last] := Except.ok.inj h
    obtain ⟨rfl, -⟩ := List.append_inj' hfront rfl
    cases hrest : tokensFrom position rest <;> simp [hrest, Except.map]
  | case2 position c cs fault hscan =>
    rw [tokensFrom, hscan] at h
    cases h
  | case3 position c cs piece extent hscan lexeme error herror =>
    rw [tokensFrom_cons_of_ok hscan, herror] at h
    cases h
  | case4 position c cs piece extent hscan lexeme others hothers =>
    rename_i ih
    have hseam : Seam (c :: cs) rest := hseam.resolve_left (List.cons_ne_nil _ _)
    obtain ⟨inner, rfl, -⟩ := exists_of_tokensFrom hothers
    rw [tokensFrom_cons_of_ok hscan, hothers, Except.map, Except.ok.injEq,
      ← List.append_assoc] at h
    obtain ⟨rfl, hlast⟩ := List.append_inj' h rfl
    have hextent := extent_le_of_scan hscan
    have hrest : cs.drop extent = [] ∨ Seam (cs.drop extent) rest := hseam.drop (extent + 1)
    rw [List.cons_append, tokensFrom_cons_of_ok (scan_append hseam hscan),
      List.take_append_of_le_length hextent, List.drop_append_of_le_length hextent,
      ih hrest (by rw [hothers, hlast]), ← Position.after_append, List.cons_append,
      List.take_append_drop]
    cases tokensFrom (position.after (c :: cs)) rest <;> simp [Except.map]

/-- A blank is scanned and gives no token. -/
theorem scan_of_blank {c : Char} (h : isBlank c = true) (cs : List Char) :
    ∃ piece extent, scan c cs = .ok (piece, extent) ∧
      ∀ lexeme position, piece.token? lexeme position = none := by
  by_cases hline : c = '\n'
  · subst hline
    exact ⟨.lineEnd, 0, rfl, fun _ _ => rfl⟩
  · exact ⟨.skipped, _, scan_blank h hline, fun _ _ => rfl⟩

/-- Blanks give no tokens. -/
theorem tokensFrom_of_blank {position : Position} (h : ∀ c ∈ cs, isBlank c = true) :
    tokensFrom position cs = .ok [⟨.endOfInput, "", position.after cs⟩] := by
  induction hn : cs.length using Nat.strongRecOn generalizing position cs with
  | ind n ih =>
    cases cs with
    | nil =>
      rw [tokensFrom]
      rfl
    | cons c cs =>
      obtain ⟨piece, extent, hscan, hnone⟩ := scan_of_blank (h c List.mem_cons_self) cs
      have hshorter : (cs.drop extent).length < n := by
        rw [← hn, List.length_cons, List.length_drop]
        omega
      have hrest : ∀ d ∈ cs.drop extent, isBlank d = true :=
        fun d hd => h d (List.mem_cons_of_mem c (List.mem_of_mem_drop hd))
      rw [tokensFrom_cons_of_ok hscan, ih _ hshorter hrest rfl, ← Position.after_append,
        List.cons_append, List.take_append_drop, hnone]
      rfl

/-- Lower lines change nothing but the lines of the tokens. -/
theorem tokensFrom_below (lines : Nat) {position : Position} {tokens : List Token}
    (h : tokensFrom position cs = .ok tokens) :
    tokensFrom (position.below lines) cs =
      .ok (tokens.map (Token.relocate (Position.below lines))) := by
  induction position, cs using tokensFrom.induct generalizing tokens with
  | case1 position =>
    rw [tokensFrom] at h ⊢
    cases h
    rfl
  | case2 position c cs fault hscan =>
    rw [tokensFrom, hscan] at h
    cases h
  | case3 position c cs piece extent hscan lexeme error herror =>
    rw [tokensFrom_cons_of_ok hscan, herror] at h
    cases h
  | case4 position c cs piece extent hscan lexeme others hothers =>
    rename_i ih
    rw [tokensFrom_cons_of_ok hscan, hothers] at h
    cases h
    have hpiece : piece.token? (c :: cs.take extent) (position.below lines) =
        (piece.token? (c :: cs.take extent) position).map
          (Token.relocate (Position.below lines)) := by
      cases piece <;> rfl
    rw [tokensFrom_cons_of_ok hscan, Position.after_below, ih hothers, hpiece]
    cases piece.token? (c :: cs.take extent) position <;> rfl

end Lexer

/-! ## Sources -/

open Lexer

variable {first second : String} {tokens others : List Token}

/-- The end of the input stands behind all tokens, at the end of the text, and nowhere else. -/
theorem exists_of_tokenize (h : tokenize first = .ok tokens) :
    ∃ front, tokens = front ++ [⟨.endOfInput, "", placeAfter first.toList⟩] ∧
      ∀ token ∈ front, token.kind ≠ .endOfInput := by
  rw [tokenize_eq_tokensFrom] at h
  rw [← start_after]
  exact exists_of_tokensFrom h

/-- A line end behind a source text moves the end of the input and changes no other token. -/
theorem tokenize_append_lineEnd {front : List Token} {last : Token}
    (h : tokenize first = .ok (front ++ [last])) :
    tokenize (first ++ "\n") =
      .ok (front ++ [⟨.endOfInput, "", placeAfter (first ++ "\n").toList⟩]) := by
  have hseam : first.toList = [] ∨ Seam first.toList ['\n'] := .inr (.inr rfl)
  rw [tokenize_eq_tokensFrom] at h ⊢
  rw [String.toList_append, show "\n".toList = ['\n'] from rfl, tokensFrom_append hseam h,
    tokensFrom_cons_of_ok rfl, List.drop_nil, tokensFrom, ← placeAfter_append, start_after]
  rfl

/-- Behind whole lines, a source text is read as it is read alone, that many lines lower. -/
theorem tokenize_append {front : List Token} {last : Token}
    (hlines : first.toList = [] ∨ first.toList.getLast? = some '\n')
    (hfirst : tokenize first = .ok (front ++ [last])) (hsecond : tokenize second = .ok others) :
    tokenize (first ++ second) =
      .ok (front ++ others.map (Token.relocate (.below (first.toList.count '\n')))) := by
  have hseam : first.toList = [] ∨ Seam first.toList second.toList := hlines.imp_right .inl
  rw [tokenize_eq_tokensFrom] at hfirst hsecond ⊢
  rw [String.toList_append, tokensFrom_append hseam hfirst, start_after,
    placeAfter_of_lineEnd hlines, tokensFrom_below _ hsecond]
  rfl

end Parlance
