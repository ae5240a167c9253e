import Parlance.Proofs.Dialogue.Submissions
import Parlance.Proofs.Program.Nesting
import Parlance.Proofs.Token.Joining

/-!
# Braces counted and braces read

A dialogue counts the braces of the lines it collects, one character at a time, to guess where a
submission ends. The parser knows nothing of the count: it meets braces as tokens, around blocks. Where
every brace of the collected text is a token, the guess never wrongs the parser (`push_sound`): no
program is held back, nothing is thrown away that could become one, and no submission is refused for a
block that is still open.

Three counts are equal then. The depth of a buffer is the count of the characters it holds
(`Buffer.Counted`), a text has the count of its tokens (`braceDepth_eq_netOpened`), and the tokens of
programs nest (`nested_of_parse`).
-/

namespace Parlance

open Dialogue Lexer Text

/-! ## Braces of a text -/

/-- A piece of a text is a brace as a token. -/
def Lexer.Cut.IsBrace (cut : Cut) : Prop :=
  ∃ token, cut.token? = some token ∧ (token.kind = .leftBrace ∨ token.kind = .rightBrace)

/-- Every brace of a text is a token: none lies inside a text literal or a comment. -/
def BracesAreTokens (source : String) : Prop :=
  ∀ cuts, Splits [] source.toList cuts [] →
    ∀ cut ∈ cuts, '\x7b' ∈ cut.lexeme ∨ '\x7d' ∈ cut.lexeme → cut.IsBrace

/-- A text without braces opens nothing. -/
theorem braceDepth_of_not_mem {cs : List Char} (h : ¬ ('\x7b' ∈ cs ∨ '\x7d' ∈ cs)) :
    braceDepth cs = 0 := by
  obtain ⟨hleft, hright⟩ := not_or.mp h
  rw [braceDepth, List.count_eq_zero.mpr hleft, List.count_eq_zero.mpr hright]
  rfl

namespace Lexer

/-- A token is a mark, or it opens and closes no block. -/
theorem Lexeme.mark_or_opens {lexeme : List Char} {content : TokenKind × String}
    (h : Lexeme lexeme (some content)) :
    (∃ c, lexeme = [c] ∧ (c, content.1) ∈ marks) ∨ content.1.opens = 0 := by
  cases h with
  | @mark c kind hmark => exact .inl ⟨c, rfl, hmark⟩
  | reserved hword =>
    have hkinds : ∀ entry ∈ reservedWords, entry.2.opens = 0 := by decide
    exact .inr (hkinds _ hword)
  | identifier _ _ => exact .inr rfl
  | unsigned _ => exact .inr rfl
  | negative _ => exact .inr rfl
  | quoted _ => exact .inr rfl

/-- The braces of a piece count as its token does, if they are tokens. -/
theorem braceDepth_lexeme {cut : Cut} (hlexeme : Lexeme cut.lexeme cut.meaning)
    (hbraces : '\x7b' ∈ cut.lexeme ∨ '\x7d' ∈ cut.lexeme → cut.IsBrace) :
    braceDepth cut.lexeme = netOpened cut.token?.toList := by
  obtain ⟨before, lexeme, meaning⟩ := cut
  cases meaning with
  | none =>
    refine braceDepth_of_not_mem fun h => ?_
    obtain ⟨token, htoken, -⟩ := hbraces h
    cases htoken
  | some content =>
    rcases hlexeme.mark_or_opens with ⟨c, rfl, hmark⟩ | hopens
    · have hdepths : ∀ entry ∈ marks, braceDepth [entry.1] = entry.2.opens := by decide
      simpa [Cut.token?] using hdepths _ hmark
    · have hcount : netOpened (Cut.token? ⟨before, lexeme, some content⟩).toList = 0 := by
        simpa [Cut.token?] using hopens
      rw [hcount]
      refine braceDepth_of_not_mem fun h => ?_
      obtain ⟨token, htoken, hkind⟩ := hbraces h
      cases htoken
      have hkind : content.1 = .leftBrace ∨ content.1 = .rightBrace := hkind
      rcases hkind with hkind | hkind <;> simp [hkind, TokenKind.opens] at hopens

/-- If all braces are tokens, the characters of a text open as much as its tokens. -/
theorem Splits.braceDepth {before cs rest : List Char} {cuts : List Cut}
    (h : Splits before cs cuts rest)
    (hbraces : ∀ cut ∈ cuts, '\x7b' ∈ cut.lexeme ∨ '\x7d' ∈ cut.lexeme → cut.IsBrace) :
    braceDepth cs = netOpened (cuts.filterMap Cut.token?) + braceDepth rest := by
  induction h with
  | done => simp
  | @cut before lexeme cs rest meaning cuts hlexeme hrest ih =>
    have hbrace := hbraces ⟨before, lexeme, meaning⟩ List.mem_cons_self
    have hfirst := braceDepth_lexeme hlexeme.accepted hbrace
    have hothers := ih fun cut hcut => hbraces cut (List.mem_cons_of_mem _ hcut)
    have hcuts : (Cut.mk before lexeme meaning :: cuts).filterMap Cut.token? =
        (Cut.token? ⟨before, lexeme, meaning⟩).toList ++ cuts.filterMap Cut.token? := by
      cases meaning <;> rfl
    rw [braceDepth_append, hfirst, hothers, hcuts, netOpened_append, Int.add_assoc]

end Lexer

/-- A text is split in one way, so one split tells whether its braces are tokens. -/
theorem bracesAreTokens_of_splits {source : String} {cuts : List Cut}
    (h : Splits [] source.toList cuts [])
    (hbraces : ∀ cut ∈ cuts, '\x7b' ∈ cut.lexeme ∨ '\x7d' ∈ cut.lexeme → cut.IsBrace) :
    BracesAreTokens source := by
  intro others hothers
  obtain ⟨rfl, -⟩ := h.unique unmatched_nil hothers unmatched_nil
  exact hbraces

/-- A text opens as many blocks by its braces as by its tokens, if its braces are tokens. -/
theorem braceDepth_eq_netOpened {source : String} {tokens : List Token}
    (htokens : tokenize source = .ok tokens) (hbraces : BracesAreTokens source) :
    ∃ front last, tokens = front ++ [last] ∧ last.kind = .endOfInput ∧
      (∀ token ∈ front, token.kind ≠ .endOfInput) ∧
        netOpened front = braceDepth source.toList := by
  obtain ⟨cuts, reached, rest, -, hcuts, -, houtcome⟩ := tokenize_eq_outcome source
  obtain ⟨front, rfl, hkinds⟩ := exists_of_tokenize htokens
  rw [houtcome] at htokens
  cases rest with
  | cons c cs => cases htokens
  | nil =>
    rw [outcome, Except.ok.injEq] at htokens
    obtain ⟨rfl, -⟩ := List.append_inj' htokens rfl
    refine ⟨_, _, rfl, rfl, hkinds, ?_⟩
    rw [hcuts.braceDepth (hbraces cuts hcuts)]
    exact (Int.add_zero _).symm

/-- The tokens before the end of the input are the first ones that a parser has ahead. -/
theorem ahead_ofTokens_append {front : List Token}
    (h : ∀ token ∈ front, token.kind ≠ .endOfInput) (rest : List Token) :
    (Cursor.ofTokens (front ++ rest)).ahead = front ++ (Cursor.ofTokens rest).ahead := by
  apply List.takeWhile_append_of_pos
  intro token htoken
  simpa using h token htoken

/-- Behind whole lines, a text is read as its tokens and those of what follows. -/
theorem tokenize_append_of_lineEnd {source more : String} {front others : List Token} {last : Token}
    (hsource : tokenize source = .ok (front ++ [last]))
    (hline : source.toList.getLast? = some '\n') (h : tokenize (source ++ more) = .ok others) :
    ∃ rest, others = front ++ rest := by
  have hjoined : tokenize (source ++ more) =
      (tokensFrom (Position.start.after source.toList) more.toList).map (front ++ ·) := by
    rw [tokenize_eq_tokensFrom] at hsource ⊢
    rw [String.toList_append]
    exact tokensFrom_append (.inr (.inl hline)) hsource
  rw [hjoined] at h
  cases hrest : tokensFrom (Position.start.after source.toList) more.toList with
  | error e =>
    rw [hrest] at h
    cases h
  | ok rest =>
    rw [hrest] at h
    cases h
    exact ⟨rest, rfl⟩

/-! ## What the depth of a text says of its program -/

section Depth

variable {source : String} {tokens : List Token}

/-- A text whose braces do not match is no program. -/
theorem exists_parse_error_of_depth (htokens : tokenize source = .ok tokens)
    (hbraces : BracesAreTokens source) (hdepth : braceDepth source.toList ≠ 0) :
    ∃ e, parse tokens = .error e := by
  obtain ⟨front, last, rfl, hlast, hkinds, hcount⟩ := braceDepth_eq_netOpened htokens hbraces
  cases hparse : parse (front ++ [last]) with
  | error e => exact ⟨e, rfl⟩
  | ok program =>
    have hnested := nested_of_parse hparse
    have hend : (Cursor.ofTokens [last]).ahead = [] := by simp [Cursor.ofTokens, hlast]
    rw [ahead_ofTokens_append hkinds, hend, List.append_nil] at hnested
    exact absurd (hcount.symm.trans hnested.closed) hdepth

/-- Where more blocks are closed than opened, no continuation makes a program. -/
theorem exists_error_of_depth_neg (htokens : tokenize source = .ok tokens)
    (hbraces : BracesAreTokens source) (hdepth : braceDepth source.toList < 0)
    (hline : source.toList.getLast? = some '\n') (more : String) :
    (∃ e, tokenize (source ++ more) = .error e) ∨
      ∃ others e, tokenize (source ++ more) = .ok others ∧ parse others = .error e := by
  obtain ⟨front, last, rfl, -, hkinds, hcount⟩ := braceDepth_eq_netOpened htokens hbraces
  cases hmore : tokenize (source ++ more) with
  | error e => exact .inl ⟨e, rfl⟩
  | ok others =>
    obtain ⟨rest, rfl⟩ := tokenize_append_of_lineEnd htokens hline hmore
    cases hparse : parse (front ++ rest) with
    | error e => exact .inr ⟨_, e, rfl, hparse⟩
    | ok program =>
      have hnested := nested_of_parse hparse
      rw [ahead_ofTokens_append hkinds] at hnested
      have hfront := hnested.front (List.prefix_append front _)
      omega

/-- A text whose braces match misses no closing one. -/
theorem fault_ne_unclosedBlock_of_depth (htokens : tokenize source = .ok tokens)
    (hbraces : BracesAreTokens source) (hdepth : braceDepth source.toList = 0) {e : SyntaxError}
    (h : parse tokens = .error e) : e.fault ≠ .unclosedBlock := by
  obtain ⟨front, last, rfl, hlast, hkinds, hcount⟩ := braceDepth_eq_netOpened htokens hbraces
  intro hfault
  have hpositive := netOpened_pos_of_parse h hfault
  have hend : (Cursor.ofTokens [last]).ahead = [] := by simp [Cursor.ofTokens, hlast]
  rw [ahead_ofTokens_append hkinds, hend, List.append_nil] at hpositive
  omega

end Depth

namespace Dialogue

/-! ## The depth of a buffer -/

namespace Buffer

variable {buffer next : Buffer} {line : String} {answer : Submission}

/-- The depth of a buffer is that of its text. -/
def Counted (buffer : Buffer) : Prop := buffer.depth = braceDepth buffer.text.toList

theorem counted_empty : empty.Counted := rfl

/-- A buffer that has counted its braces goes on to do so. -/
theorem Counted.textWith (h : buffer.Counted) (line : String) :
    braceDepth (buffer.textWith line).toList = buffer.depthWith line := by
  have hend : braceDepth "\n".toList = 0 := by decide
  rw [Buffer.textWith, String.toList_append, String.toList_append, braceDepth_append,
    braceDepth_append, hend, Int.add_zero, ← h, depthWith]

/-- A blank buffer has no braces. -/
theorem Counted.depth_of_isBlank (h : buffer.Counted) (hblank : buffer.isBlank = true) :
    buffer.depth = 0 := by
  have hclass : ∀ c ∈ buffer.text.toList, Text.isBlank c = true := List.all_eq_true.mp hblank
  rw [h]
  apply braceDepth_of_not_mem
  rintro (hmem | hmem)
  · exact absurd (hclass _ hmem) (by decide)
  · exact absurd (hclass _ hmem) (by decide)

/-- What a line does to a buffer keeps the count. -/
theorem Takes.counted (h : Takes buffer line answer next) (hcount : buffer.Counted) :
    next.Counted := by
  cases h with
  | skipped hskips => exact hcount.depth_of_isBlank (Bool.and_eq_true_iff.mp hskips).1
  | unbalanced hskips hdepth => exact counted_empty
  | ready hskips hdepth hends => exact counted_empty
  | pending hskips hdepth hopen => exact (hcount.textWith line).symm

/-- A buffer counts its braces right, whatever is pushed. -/
theorem Counted.after (h : buffer.Counted) (lines : List String) : (buffer.after lines).Counted := by
  induction lines generalizing buffer with
  | nil => exact h
  | cons line rest ih => exact ih ((takes_push buffer line).counted h)

/-- The text that the answer to a line is about: what is collected then, or what is submitted or thrown
away with this line. -/
def judged (buffer : Buffer) (line : String) : String :=
  match buffer.push line with
  | (.pending, next) => next.text
  | (.unbalanced, _) => buffer.textWith line
  | (.ready source, _) => source

theorem getLast?_textWith (buffer : Buffer) (line : String) :
    (buffer.textWith line).toList.getLast? = some '\n' := by
  simp [textWith, String.toList_append]

/-- What the answer to a line says of the depth of the text it is about. -/
theorem Counted.depth_judged (h : buffer.Counted) (line : String) :
    (0 < (buffer.push line).2.depth → 0 < braceDepth (buffer.judged line).toList) ∧
    ((buffer.push line).1 = .unbalanced → braceDepth (buffer.judged line).toList < 0 ∧
      (buffer.judged line).toList.getLast? = some '\n') ∧
    ∀ source, (buffer.push line).1 = .ready source →
      braceDepth (buffer.judged line).toList = 0 := by
  have htakes := buffer.takes_push line
  have hcounted := htakes.counted h
  unfold judged
  generalize buffer.push line = result at htakes hcounted ⊢
  obtain ⟨answer, next⟩ := result
  cases htakes with
  | skipped hskips =>
    refine ⟨fun hdepth => hcounted ▸ hdepth, fun hanswer => ?_, fun source hanswer => ?_⟩
    · cases hanswer
    · cases hanswer
  | unbalanced hskips hdepth =>
    refine ⟨fun hpositive => ?_, fun _ => ?_, fun source hanswer => ?_⟩
    · cases hpositive
    · exact ⟨(h.textWith line).symm ▸ hdepth, getLast?_textWith buffer line⟩
    · cases hanswer
  | ready hskips hdepth hends =>
    refine ⟨fun hpositive => ?_, fun hanswer => ?_, fun source _ => ?_⟩
    · cases hpositive
    · cases hanswer
    · exact (h.textWith line).trans hdepth
  | pending hskips hdepth hopen =>
    refine ⟨fun hpositive => hcounted ▸ hpositive, fun hanswer => ?_, fun source hanswer => ?_⟩
    · cases hanswer
    · cases hanswer

end Buffer

/-- **The count of braces is sound for the parser.** Push a line behind any lines, and let the text that
the answer is about be one whose braces are all tokens. If the depth is positive then, the text is no
program. If it is thrown away as unbalanced, nothing that could follow it makes a program of it. If it is
submitted, the parser does not refuse it for a block that is still open. -/
theorem push_sound (lines : List String) (line : String) {tokens : List Token}
    (htokens : tokenize ((Buffer.empty.after lines).judged line) = .ok tokens)
    (hbraces : BracesAreTokens ((Buffer.empty.after lines).judged line)) :
    let buffer := Buffer.empty.after lines
    let source := buffer.judged line
    (0 < (buffer.push line).2.depth → ∃ e, parse tokens = .error e) ∧
    ((buffer.push line).1 = .unbalanced → ∀ more : String,
      (∃ e, tokenize (source ++ more) = .error e) ∨
        ∃ others e, tokenize (source ++ more) = .ok others ∧ parse others = .error e) ∧
    ((buffer.push line).1 = .ready source →
      ∀ e, parse tokens = .error e → e.fault ≠ .unclosedBlock) := by
  intro buffer source
  have hcounted : buffer.Counted := Buffer.counted_empty.after lines
  obtain ⟨hpositive, hnegative, hzero⟩ := hcounted.depth_judged line
  refine ⟨fun hdepth => ?_, fun hanswer more => ?_, fun hanswer e herror => ?_⟩
  · exact exists_parse_error_of_depth htokens hbraces (Int.ne_of_gt (hpositive hdepth))
  · obtain ⟨hdepth, hline⟩ := hnegative hanswer
    exact exists_error_of_depth_neg htokens hbraces hdepth hline more
  · exact fault_ne_unclosedBlock_of_depth htokens hbraces (hzero source hanswer) herror

/-- A block that is opened on the second line is no program yet, and a brace that closes nothing is never
the beginning of one. -/
theorem push_sound_of_two_braces :
    let opened := (Buffer.empty.after [" "]).push "\x7b"
    let closed := Buffer.empty.push "\x7d"
    opened.2 = ⟨"\x7b\n", 1⟩ ∧ closed.1 = .unbalanced ∧
      (∃ tokens e, tokenize "\x7b\n" = .ok tokens ∧ parse tokens = .error e) ∧
      ∀ more : String, (∃ e, tokenize ("\x7d\n" ++ more) = .error e) ∨
        ∃ others e, tokenize ("\x7d\n" ++ more) = .ok others ∧ parse others = .error e := by
  intro opened closed
  have hopened : opened = (.pending, ⟨"\x7b\n", 1⟩) := by decide
  have hclosed : closed = (.unbalanced, .empty) := by decide
  have hbraces : ∀ {c : Char} {kind : TokenKind}, (c, kind) ∈ marks →
      kind = .leftBrace ∨ kind = .rightBrace → BracesAreTokens (String.ofList [c, '\n']) := by
    intro c kind hmark hkind
    have hbrace : Longest [c, '\n'] [c] (some (kind, String.ofList [c])) :=
      longest_of_scan (scan_mark hmark)
    have hscan : scan '\n' [] = .ok (.lineEnd, 0) := rfl
    have hline : Longest (['\n'] ++ []) ['\n'] none := longest_of_scan hscan
    have hsplits : Splits [] ([c] ++ (['\n'] ++ [])) _ [] := .cut hbrace (.cut hline .done)
    refine bracesAreTokens_of_splits (by rwa [String.toList_ofList]) ?_
    intro cut hcut hmem
    simp only [List.mem_cons, List.not_mem_nil, or_false] at hcut
    rcases hcut with rfl | rfl
    · exact ⟨_, rfl, hkind⟩
    · simp at hmem
  have hleft : BracesAreTokens "\x7b\n" := hbraces (c := '\x7b') (by decide) (.inl rfl)
  have hright : BracesAreTokens "\x7d\n" := hbraces (c := '\x7d') (by decide) (.inr rfl)
  have htokens : tokenize "\x7b\n" =
      .ok [⟨.leftBrace, "\x7b", ⟨1, 1⟩⟩, ⟨.endOfInput, "", ⟨2, 1⟩⟩] := by decide +kernel
  have htokens' : tokenize "\x7d\n" =
      .ok [⟨.rightBrace, "\x7d", ⟨1, 1⟩⟩, ⟨.endOfInput, "", ⟨2, 1⟩⟩] := by decide +kernel
  have hpositive := (push_sound [" "] "\x7b" htokens hleft).1 (by decide)
  have hnegative := (push_sound [] "\x7d" htokens' hright).2.1 (by decide)
  obtain ⟨e, he⟩ := hpositive
  exact ⟨by rw [hopened], by rw [hclosed], ⟨_, e, htokens, he⟩, hnegative⟩

end Dialogue

end Parlance
