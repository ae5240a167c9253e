import Parlance.Proofs.Token.Splitting

/-!
# Tokens written out

A token is written as its text, a text token as a literal with its escapes, and a list of tokens with
one blank between two of them. Reading what is written gives the tokens back (`tokenize_spelling`), so
every text can be said as a literal.

The argument stays in the lexical grammar. A written token is a lexeme (`Lexable.lexeme`), and where a
blank or the end of the text follows, no lexeme is longer (`Lexeme.longest`): only blanks, comments and
literals hold a blank at all, no token begins as the first two do, and a literal is closed by its first
bare quote.
-/

namespace Parlance

namespace Lexer

open Text

/-! ## How a token is written -/

/-- How a character is written inside a text literal. -/
def escape : Char → List Char
  | '\\' => ['\\', '\\']
  | '"' => ['\\', '"']
  | '\n' => ['\\', 'n']
  | c => [c]

/-- How a token with this kind and text is written. -/
def spelling (content : TokenKind × String) : String :=
  if content.1 = .text then
    String.ofList ('"' :: (content.2.toList.flatMap escape ++ ['"']))
  else content.2

/-- How tokens are written, with one blank between two of them. -/
def spellingAll (contents : List (TokenKind × String)) : String :=
  " ".intercalate (contents.map spelling)

/-- The kinds and texts of the tokens that can be written: reserved words and marks, free names,
numbers, and any text. -/
inductive Lexable : TokenKind × String → Prop
  | reserved {word : String} {kind : TokenKind} (hword : (word, kind) ∈ reservedWords) :
      Lexable (kind, word)
  | mark {c : Char} {kind : TokenKind} (hmark : (c, kind) ∈ marks) :
      Lexable (kind, String.ofList [c])
  | identifier {name : String} (hname : NameShape name.toList)
      (hfree : ∀ entry ∈ reservedWords, entry.1 ≠ name) : Lexable (.identifier, name)
  | unsigned {literal : String} (hnumber : UnsignedShape literal.toList) : Lexable (.number, literal)
  | negative {cs : List Char} (hnumber : UnsignedShape cs) :
      Lexable (.number, String.ofList ('-' :: cs))
  | text (content : String) : Lexable (.text, content)

/-! ## A written token is a lexeme -/

/-- An escaped text is the body of a literal that means it. -/
theorem quotedBody_escape (cs : List Char) : QuotedBody (cs.flatMap escape) cs := by
  induction cs with
  | nil => exact .nil
  | cons c cs ih =>
    rw [List.flatMap_cons]
    unfold escape
    split
    · exact .other (by decide) (by decide) (by decide) ih
    · exact .other (by decide) (by decide) (by decide) ih
    · exact .newline ih
    · rename_i backslash quote lineEnd
      exact .plain quote backslash lineEnd ih

theorem toList_spelling_of_ne {kind : TokenKind} (h : kind ≠ .text) (text : String) :
    (spelling (kind, text)).toList = text.toList := by
  rw [spelling, if_neg h]

/-- What can be spelled is spelled by a lexeme of its own. -/
theorem Lexable.lexeme {content : TokenKind × String} (h : Lexable content) :
    Lexeme (spelling content).toList (some content) := by
  cases h with
  | @reserved word kind hword =>
    have hkinds : ∀ entry ∈ reservedWords, entry.2 ≠ .text := by decide
    rw [toList_spelling_of_ne (hkinds _ hword)]
    exact .reserved hword
  | @mark c kind hmark =>
    have hkinds : ∀ entry ∈ marks, entry.2 ≠ .text := by decide
    rw [toList_spelling_of_ne (hkinds _ hmark), String.toList_ofList]
    exact .mark hmark
  | @identifier name hname hfree =>
    rw [toList_spelling_of_ne (by decide)]
    have hlexeme := Lexeme.identifier hname (by rwa [String.ofList_toList])
    rwa [String.ofList_toList] at hlexeme
  | @unsigned literal hnumber =>
    rw [toList_spelling_of_ne (by decide)]
    have hlexeme := Lexeme.unsigned hnumber
    rwa [String.ofList_toList] at hlexeme
  | negative hnumber =>
    rw [toList_spelling_of_ne (by decide), String.toList_ofList]
    exact .negative hnumber
  | text content =>
    rw [spelling, if_pos rfl, String.toList_ofList]
    have hlexeme := Lexeme.quoted (quotedBody_escape content.toList)
    rwa [String.ofList_toList] at hlexeme

/-! ## No lexeme is longer before a blank -/

/-- How the lexeme of a token begins: not as blanks or a comment do, and with a quote only if it is a
literal. -/
theorem Lexeme.exists_head {lexeme : List Char} {content : TokenKind × String}
    (h : Lexeme lexeme (some content)) :
    ∃ c cs, lexeme = c :: cs ∧ isBlank c = false ∧ c ≠ '/' ∧
      (c = '"' → ∃ written meant, QuotedBody written meant ∧ cs = written ++ ['"']) := by
  have hname : ∀ {cs : List Char}, NameShape cs →
      ∃ c ds, cs = c :: ds ∧ isBlank c = false ∧ c ≠ '/' ∧
        (c = '"' → ∃ written meant, QuotedBody written meant ∧ ds = written ++ ['"']) := by
    intro cs hcs
    cases hcs with
    | @mk c ds first others =>
      have hbegins := (nameShape_cons_iff.mp (.mk first others)).1
      exact ⟨c, ds, rfl, isBlank_of_beginsName hbegins, ne_of_class hbegins (by decide),
        fun hquote => absurd hquote (ne_of_class hbegins (by decide))⟩
  cases h with
  | @mark c kind hmark =>
    have hmarks : ∀ entry ∈ marks, isBlank entry.1 = false ∧ entry.1 ≠ '/' ∧ entry.1 ≠ '"' := by
      decide
    obtain ⟨hblank, hslash, hquote⟩ := hmarks _ hmark
    exact ⟨c, [], rfl, hblank, hslash, fun h => absurd h hquote⟩
  | reserved hword => exact hname (nameShape_of_reserved hword)
  | identifier hshape _ => exact hname hshape
  | unsigned hnumber =>
    cases hnumber with
    | @mk whole fraction nonempty hwhole _ =>
      obtain ⟨d, ds, rfl⟩ := List.exists_cons_of_ne_nil nonempty
      have hdigit := hwhole d List.mem_cons_self
      exact ⟨d, ds ++ fraction, rfl, isBlank_of_isDigit hdigit, ne_of_class hdigit (by decide),
        fun hquote => absurd hquote (ne_of_class hdigit (by decide))⟩
  | negative _ => exact ⟨'-', _, rfl, by decide, by decide, fun h => absurd h (by decide)⟩
  | quoted hbody => exact ⟨'"', _, rfl, by decide, by decide, fun _ => ⟨_, _, hbody, rfl⟩⟩

/-- Behind the lexeme of a token, a blank or the end of the text is never part of a longer one. -/
theorem Lexeme.longest {lexeme rest : List Char} {content : TokenKind × String}
    (h : Lexeme lexeme (some content)) (hrest : rest = [] ∨ rest.head? = some ' ') :
    Longest (lexeme ++ rest) lexeme (some content) where
  accepted := h
  front := List.prefix_append lexeme rest
  longest {other meaning} hother hfront := by
    rcases hrest with rfl | hrest
    · rw [List.append_nil] at hfront
      exact hfront.length_le
    obtain ⟨tail, rfl⟩ := List.head?_eq_some_iff.mp hrest
    refine Nat.le_of_not_lt fun hlonger => ?_
    -- A longer lexeme goes over the blank and begins as this one does.
    have hover : lexeme ++ [' '] <+: other := by
      have hblank : lexeme ++ [' '] <+: lexeme ++ ' ' :: tail := ⟨tail, by simp⟩
      refine List.prefix_of_prefix_length_le hblank hfront ?_
      rw [List.length_append]
      exact hlonger
    have hmem : ' ' ∈ other := hover.subset (by simp)
    obtain ⟨c, cs, rfl, hblank, hslash, hquote⟩ := h.exists_head
    have hhead : ∀ {d : Char} {ds : List Char}, other = d :: ds → d = c := by
      rintro d ds rfl
      exact (List.cons_prefix_cons.mp hover).1.symm
    cases hother with
    | blanks nonempty hblanks =>
      have hfirst := (hblanks c (hover.subset (by simp))).1
      rw [hblank] at hfirst
      cases hfirst
    | lineEnd => simp at hmem
    | comment hbody => exact hslash (hhead rfl).symm
    | @mark d kind hmark =>
      have hmarks : ∀ entry ∈ marks, entry.1 ≠ ' ' := by decide
      exact hmarks _ hmark (List.mem_singleton.mp hmem).symm
    | reserved hword =>
      exact not_mem_of_nameShape (nameShape_of_reserved hword) (by decide) (by decide) hmem
    | identifier hname _ => exact not_mem_of_nameShape hname (by decide) (by decide) hmem
    | unsigned hnumber => exact not_mem_of_unsignedShape hnumber (by decide) (by decide) hmem
    | negative hnumber =>
      have hmem : ' ' ∈ _ := (List.mem_cons.mp hmem).resolve_left (by decide)
      exact not_mem_of_unsignedShape hnumber (by decide) (by decide) hmem
    | @quoted written' meant' hbody' =>
      obtain ⟨written, meant, hbody, rfl⟩ := hquote (hhead rfl).symm
      obtain rfl := hhead rfl
      rw [List.cons_append] at hfront
      obtain ⟨-, more, hmore⟩ := List.cons_prefix_cons.mp hfront
      -- Both literals are closed by the first bare quote of the same text.
      have hextent := quotedExtent?_of_body hbody (' ' :: tail)
      have hextent' := quotedExtent?_of_body hbody' more
      simp only [List.append_assoc, List.cons_append, List.nil_append] at hmore
      rw [hmore, hextent, Option.some.injEq] at hextent'
      simp only [List.length_cons, List.length_append, List.length_nil] at hlonger
      omega

/-- One blank before a token is skipped by itself. -/
theorem longest_blank {cs : List Char} (h : ∃ c ds, cs = c :: ds ∧ isBlank c = false) :
    Longest (' ' :: cs) [' '] none := by
  obtain ⟨c, ds, rfl, hblank⟩ := h
  have hrun : (c :: ds).takeWhile isInlineBlank = [] :=
    List.takeWhile_cons_of_neg (by simp [isInlineBlank, hblank])
  have hscan : scan ' ' (c :: ds) = .ok (.skipped, 0) := by
    rw [scan_blank (by decide) (by decide), hrun]
    rfl
  exact longest_of_scan hscan

/-! ## Written tokens are split at the blanks between them -/

theorem spellingAll_singleton (content : TokenKind × String) :
    spellingAll [content] = spelling content :=
  String.intercalate_singleton

/-- Spellings stand one behind the other with a blank between them. -/
theorem toList_spellingAll_cons (first second : TokenKind × String)
    (others : List (TokenKind × String)) :
    (spellingAll (first :: second :: others)).toList =
      (spelling first).toList ++ ([' '] ++ (spellingAll (second :: others)).toList) := by
  simp only [spellingAll, List.map_cons, String.intercalate_cons_cons, String.toList_append,
    List.append_assoc]
  rfl

/-- What is spelled does not begin with a blank. -/
theorem exists_head_spellingAll {first : TokenKind × String} (h : Lexable first)
    (others : List (TokenKind × String)) :
    ∃ c cs, (spellingAll (first :: others)).toList = c :: cs ∧ isBlank c = false := by
  obtain ⟨c, cs, hhead, hblank, -⟩ := h.lexeme.exists_head
  cases others with
  | nil => exact ⟨c, cs, by rw [spellingAll_singleton, hhead], hblank⟩
  | cons second others => exact ⟨c, _, by rw [toList_spellingAll_cons, hhead]; rfl, hblank⟩

/-- Spellings are split where they were joined, and each means what it was made of. -/
theorem exists_splits_spellingAll (before : List Char) {contents : List (TokenKind × String)}
    (h : ∀ content ∈ contents, Lexable content) :
    ∃ cuts, Splits before (spellingAll contents).toList cuts [] ∧
      cuts.filterMap Cut.meaning = contents := by
  induction contents generalizing before with
  | nil => exact ⟨[], .done, rfl⟩
  | cons first others ih =>
    have hfirst := (h first List.mem_cons_self).lexeme
    have hothers := fun content hcontent => h content (List.mem_cons_of_mem first hcontent)
    cases others with
    | nil =>
      refine ⟨[⟨before, (spelling first).toList, some first⟩], ?_, rfl⟩
      have hsplit : Splits before ((spelling first).toList ++ []) _ [] :=
        .cut (hfirst.longest (.inl rfl)) .done
      rw [List.append_nil] at hsplit
      rwa [spellingAll_singleton]
    | cons second others =>
      obtain ⟨cuts, hcuts, hmeanings⟩ := ih (before ++ (spelling first).toList ++ [' ']) hothers
      have hblank := longest_blank (exists_head_spellingAll (hothers second List.mem_cons_self) others)
      rw [toList_spellingAll_cons]
      refine ⟨_, .cut (hfirst.longest (.inr rfl)) (.cut hblank hcuts), ?_⟩
      simp only [List.filterMap_cons, hmeanings]

/-- Spelled tokens are read back in their order, with the end of the input behind them. -/
theorem tokenize_spellingAll {contents : List (TokenKind × String)}
    (h : ∀ content ∈ contents, Lexable content) :
    ∃ tokens, tokenize (spellingAll contents) = .ok tokens ∧
      tokens.map Token.content = contents ++ [(.endOfInput, "")] := by
  obtain ⟨cuts, hcuts, hmeanings⟩ := exists_splits_spellingAll [] h
  obtain ⟨reached, -, htokens⟩ := tokenize_of_splits hcuts unmatched_nil
  refine ⟨_, htokens, ?_⟩
  rw [List.map_append, filterMap_token?_content, hmeanings]
  rfl

/-- **Reading undoes writing.** Tokens that are written in order, with one blank between two of them,
are read back as the same kinds and texts, and one more token ends the input. Every text whatever is
such a token, so each of them is what some literal stands for. -/
theorem tokenize_spelling {contents : List (TokenKind × String)}
    (h : ∀ content ∈ contents, Lexable content) :
    (∃ tokens, tokenize (spellingAll contents) = .ok tokens ∧
      tokens.map Token.content = contents ++ [(.endOfInput, "")]) ∧
    ∀ text : String, ∃ tokens, tokenize (spelling (.text, text)) = .ok tokens ∧
      tokens.map Token.content = [(.text, text), (.endOfInput, "")] := by
  refine ⟨tokenize_spellingAll h, fun text => ?_⟩
  have htext : ∀ content ∈ [(TokenKind.text, text)], Lexable content := by
    intro content hcontent
    cases List.mem_singleton.mp hcontent
    exact .text text
  rw [← spellingAll_singleton]
  exact tokenize_spellingAll htext

/-- A name that only begins as a reserved word does, a number with a bare point, and a text that holds
what ends a literal and what begins a comment. -/
theorem tokenize_spelling_of_hard_tokens :
    let contents : List (TokenKind × String) := [(.sayWord, "say"), (.identifier, "says"),
      (.number, "-2."), (.text, "a\\\"\n//\x7d"), (.semicolon, ";")]
    spellingAll contents = "say says -2. \"a\\\\\\\"\\n//\x7d\" ;" ∧
      ∃ tokens, tokenize (spellingAll contents) = .ok tokens ∧
        tokens.map Token.content = contents ++ [(.endOfInput, "")] := by
  intro contents
  have hwhole : ∀ d ∈ ['2'], d.isDigit = true := List.all_eq_true.mp (by decide)
  have hnumber : UnsignedShape ['2', '.'] := .mk (by decide) hwhole (.some (by simp))
  have hname : NameShape "says".toList := isName_iff.mp (by decide)
  have hcontents : ∀ content ∈ contents, Lexable content := by
    simp only [contents, List.forall_mem_cons, List.not_mem_nil, false_implies, implies_true,
      and_true]
    exact ⟨.reserved (by decide), .identifier hname (by decide), .negative hnumber, .text _,
      .mark (c := ';') (by decide)⟩
  exact ⟨by decide, (tokenize_spelling hcontents).1⟩

end Lexer

end Parlance
