import Parlance.Proofs.Token.Places

/-!
# A source text is split into longest lexemes

Every text is cut into longest lexemes up to a remainder that no lexeme begins, and there is one way
to do so (`Splits.unique`). The tokens are read off the cuts (`tokenize_eq_outcome`): each lexeme that
is not skipped gives its token, an empty remainder gives the end of the input, and any other remainder
the fault of its first character.

A place is where counting leads (`placeAfter`): the lines and the characters of the last line before
it. The lexer counts bytes instead, which leads to the same place at every cut
(`tokenize_eq_tokensFrom`).

* `tokenize_longest_match`: success, failure and what the tokens say, places left aside;
* `tokenize_places`: the place of every token and of an error.
-/

namespace Parlance

namespace Lexer

/-! ## There is one split -/

/-- Nothing is matched at the end of a text. -/
theorem unmatched_nil : Unmatched [] := by
  intro lexeme meaning hlexeme hfront
  exact hlexeme.ne_nil (List.prefix_nil.mp hfront)

/-- There is at most one longest lexeme at a place, and it has one meaning. -/
theorem Longest.unique {cs lexeme other : List Char} {meaning meaning' : Meaning}
    (h : Longest cs lexeme meaning) (h' : Longest cs other meaning') :
    lexeme = other ∧ meaning = meaning' := by
  have hlength : lexeme.length = other.length :=
    Nat.le_antisymm (h'.longest h.accepted h.front) (h.longest h'.accepted h'.front)
  have heq : lexeme = other := by
    rw [List.prefix_iff_eq_take.mp h.front, List.prefix_iff_eq_take.mp h'.front, hlength]
  subst heq
  exact ⟨rfl, h.accepted.meaning_unique h'.accepted⟩

/-- Cutting stops only where it has to, so it cuts the same way each time. -/
theorem Splits.unique {before cs rest rest' : List Char} {cuts cuts' : List Cut}
    (h : Splits before cs cuts rest) (hrest : Unmatched rest) (h' : Splits before cs cuts' rest')
    (hrest' : Unmatched rest') : cuts = cuts' ∧ rest = rest' := by
  induction h generalizing cuts' with
  | done =>
    cases h' with
    | done => exact ⟨rfl, rfl⟩
    | cut hlexeme _ => exact absurd hlexeme.front (hrest hlexeme.accepted)
  | @cut before lexeme cs rest meaning cuts hlexeme _ ih =>
    generalize htext : lexeme ++ cs = text at h'
    cases h' with
    | done =>
      subst htext
      exact absurd hlexeme.front (hrest' hlexeme.accepted)
    | @cut _ lexeme' cs' _ meaning' cuts' hlexeme' h' =>
      rw [← htext] at hlexeme'
      obtain ⟨rfl, rfl⟩ := hlexeme.unique hlexeme'
      obtain rfl := List.append_cancel_left htext
      obtain ⟨rfl, rfl⟩ := ih hrest h'
      exact ⟨rfl, rfl⟩

/-- Every cut lies where it says in the text. -/
theorem Splits.mem_front {before cs rest : List Char} {cuts : List Cut}
    (h : Splits before cs cuts rest) {cut : Cut} (hcut : cut ∈ cuts) :
    cut.before ++ cut.lexeme <+: before ++ cs := by
  induction h with
  | done => cases hcut
  | @cut before lexeme cs rest meaning cuts _ _ ih =>
    rw [← List.append_assoc]
    rcases List.mem_cons.mp hcut with rfl | hcut
    · exact List.prefix_append _ _
    · exact ih hcut

/-- Every cut is a lexeme with its meaning. -/
theorem Splits.mem_lexeme {before cs rest : List Char} {cuts : List Cut}
    (h : Splits before cs cuts rest) {cut : Cut} (hcut : cut ∈ cuts) :
    Lexeme cut.lexeme cut.meaning := by
  induction h with
  | done => cases hcut
  | cut hlexeme _ ih =>
    rcases List.mem_cons.mp hcut with rfl | hcut
    · exact hlexeme.accepted
    · exact ih hcut

/-! ## Tokens read off the cuts -/

/-- The token of a cut, if it is not skipped. -/
def Cut.token? (cut : Cut) : Option Token :=
  cut.meaning.map fun content => ⟨content.1, content.2, placeAfter cut.before⟩

theorem Cut.content_token? (cut : Cut) : cut.token?.map Token.content = cut.meaning := by
  obtain ⟨before, lexeme, meaning⟩ := cut
  cases meaning <;> rfl

/-- The tokens of cuts are their meanings, at places. -/
theorem filterMap_token?_content (cuts : List Cut) :
    (cuts.filterMap Cut.token?).map Token.content = cuts.filterMap Cut.meaning := by
  rw [List.map_filterMap]
  exact congrArg (cuts.filterMap ·) (funext Cut.content_token?)

/-- What cuts give when a text is read up to a remainder. -/
def outcome (reached : List Char) (cuts : List Cut) : List Char → Except LexicalError (List Token)
  | [] => .ok (cuts.filterMap Cut.token? ++ [⟨.endOfInput, "", placeAfter reached⟩])
  | c :: _ => .error ⟨refusal c, placeAfter reached⟩

/-- One more cut before the others. -/
theorem outcome_cons (reached rest : List Char) (cut : Cut) (cuts : List Cut) :
    outcome reached (cut :: cuts) rest =
      (outcome reached cuts rest).map (cut.token?.toList ++ ·) := by
  cases rest with
  | nil => cases h : cut.token? <;> simp [outcome, h, Except.map]
  | cons c cs => rfl

/-- Reading a text piece by piece gives what its split gives. -/
theorem tokensFrom_eq_outcome (before cs : List Char) :
    ∃ cuts reached rest, before ++ cs = reached ++ rest ∧ Splits before cs cuts rest ∧
      Unmatched rest ∧ tokensFrom (placeAfter before) cs = outcome reached cuts rest := by
  -- The induction is on how much is left: a piece has a first character, so less is left behind it.
  induction hn : cs.length using Nat.strongRecOn generalizing before cs with
  | ind n ih =>
    cases cs with
    | nil => exact ⟨[], before, [], rfl, .done, unmatched_nil, by rw [tokensFrom]; rfl⟩
    | cons c cs =>
      cases hscan : scan c cs with
      | error fault =>
        refine ⟨[], before, c :: cs, rfl, .done, unmatched_of_scan hscan, ?_⟩
        rw [tokensFrom, hscan, scan_fault hscan]
        rfl
      | ok result =>
        obtain ⟨piece, extent⟩ := result
        have hsplit : c :: cs = (c :: cs.take extent) ++ cs.drop extent := by
          rw [List.cons_append, List.take_append_drop]
        have hlonger : (cs.drop extent).length < n := by
          rw [← hn, List.length_cons, List.length_drop]
          omega
        obtain ⟨cuts, reached, rest, hreached, hcuts, hrest, htokens⟩ :=
          ih _ hlonger (before ++ (c :: cs.take extent)) (cs.drop extent) rfl
        refine ⟨⟨before, c :: cs.take extent, piece.meaning (c :: cs.take extent)⟩ :: cuts,
          reached, rest, ?_, ?_, hrest, ?_⟩
        · rw [← hreached, hsplit, List.append_assoc]
        · have hlongest := longest_of_scan hscan
          rw [hsplit] at hlongest ⊢
          exact .cut hlongest hcuts
        · rw [tokensFrom_cons_of_ok hscan, placeAfter_append, htokens, outcome_cons,
            Piece.token?_eq]
          rfl

/-- The tokens of a source text are those of its split. -/
theorem tokenize_eq_outcome (source : String) :
    ∃ cuts reached rest, source.toList = reached ++ rest ∧ Splits [] source.toList cuts rest ∧
      Unmatched rest ∧ tokenize source = outcome reached cuts rest := by
  rw [tokenize_eq_tokensFrom]
  exact tokensFrom_eq_outcome [] source.toList

/-- A split of a source text up to a remainder that no lexeme begins decides its tokens. -/
theorem tokenize_of_splits {source : String} {cuts : List Cut} {rest : List Char}
    (h : Splits [] source.toList cuts rest) (hrest : Unmatched rest) :
    ∃ reached, source.toList = reached ++ rest ∧ tokenize source = outcome reached cuts rest := by
  obtain ⟨cuts', reached, rest', hsource, hcuts, hrest', htokens⟩ := tokenize_eq_outcome source
  obtain ⟨rfl, rfl⟩ := h.unique hrest hcuts hrest'
  exact ⟨reached, hsource, htokens⟩

/-- The cuts that give tokens. -/
def kept (cuts : List Cut) : List Cut := cuts.filter (·.meaning.isSome)

/-- The token at an index comes from the kept cut at the same index. -/
theorem exists_kept_of_filterMap {cuts : List Cut} {i : Nat} {token : Token}
    (h : (cuts.filterMap Cut.token?)[i]? = some token) :
    ∃ cut, (kept cuts)[i]? = some cut ∧ cut.token? = some token := by
  induction cuts generalizing i with
  | nil => cases h
  | cons cut cuts ih =>
    obtain ⟨before, lexeme, meaning⟩ := cut
    cases meaning with
    | none => exact ih h
    | some content =>
      cases i with
      | zero => exact ⟨_, rfl, h⟩
      | succ i => exact ih h

/-- A token but the end of the input is that of a cut, counted among the cuts that give tokens. -/
theorem exists_cut_of_getElem?_tokenize {source : String} {tokens : List Token} {i : Nat}
    {token : Token} (h : tokenize source = .ok tokens) (htoken : tokens[i]? = some token)
    (hkind : token.kind ≠ .endOfInput) :
    ∃ cuts cut, Splits [] source.toList cuts [] ∧ (kept cuts)[i]? = some cut ∧
      cut.before ++ cut.lexeme <+: source.toList ∧ Lexeme cut.lexeme (some token.content) ∧
        token.position = placeAfter cut.before := by
  obtain ⟨cuts, reached, rest, -, hcuts, -, htokens⟩ := tokenize_eq_outcome source
  cases rest with
  | cons c cs =>
    rw [htokens] at h
    cases h
  | nil =>
    rw [htokens, outcome] at h
    cases h
    have hlt : i < (cuts.filterMap Cut.token?).length := by
      refine Nat.lt_of_not_le fun hle => hkind ?_
      rw [List.getElem?_append_right hle] at htoken
      rw [List.mem_singleton.mp (List.mem_of_getElem? htoken)]
    rw [List.getElem?_append_left hlt] at htoken
    obtain ⟨cut, hkept, hcut⟩ := exists_kept_of_filterMap htoken
    have hmem : cut ∈ cuts := (List.mem_filter.mp (List.mem_of_getElem? hkept)).1
    obtain ⟨content, hmeaning, rfl⟩ := Option.map_eq_some_iff.mp hcut
    exact ⟨cuts, cut, hcuts, hkept, hcuts.mem_front hmem, hmeaning ▸ hcuts.mem_lexeme hmem, rfl⟩

/-- Every token but the end of the input is a lexeme of the text. -/
theorem exists_lexeme_of_mem_tokenize {source : String} {tokens : List Token} {token : Token}
    (h : tokenize source = .ok tokens) (htoken : token ∈ tokens) (hkind : token.kind ≠ .endOfInput) :
    ∃ lexeme, Lexeme lexeme (some token.content) := by
  obtain ⟨i, hi⟩ := List.getElem?_of_mem htoken
  obtain ⟨cuts, cut, -, -, -, hlexeme, -⟩ := exists_cut_of_getElem?_tokenize h hi hkind
  exact ⟨cut.lexeme, hlexeme⟩

/-- **Reading a source text is splitting it into longest lexemes.** It succeeds when nothing remains:
the tokens then say what the lexemes that are not skipped mean, in order, and one more token ends the
input. It fails when a remainder is left that no lexeme begins, and the first character of this
remainder decides the fault. -/
theorem tokenize_longest_match (source : String) :
    (∀ contents : List (TokenKind × String),
      (∃ tokens, tokenize source = .ok tokens ∧ tokens.map Token.content = contents) ↔
        ∃ cuts, Splits [] source.toList cuts [] ∧
          contents = cuts.filterMap Cut.meaning ++ [(.endOfInput, "")]) ∧
    ∀ fault : LexicalFault,
      (∃ e, tokenize source = .error e ∧ e.fault = fault) ↔
        ∃ cuts c cs, Splits [] source.toList cuts (c :: cs) ∧ Unmatched (c :: cs) ∧
          fault = refusal c := by
  obtain ⟨cuts, reached, rest, hsource, hcuts, hrest, htokens⟩ := tokenize_eq_outcome source
  refine ⟨fun contents => ⟨?_, ?_⟩, fun fault => ⟨?_, ?_⟩⟩
  · intro h
    obtain ⟨tokens, hok, rfl⟩ := h
    cases rest with
    | nil =>
      rw [htokens, outcome] at hok
      cases hok
      refine ⟨cuts, hcuts, ?_⟩
      rw [List.map_append, filterMap_token?_content]
      rfl
    | cons c cs =>
      rw [htokens] at hok
      cases hok
  · intro h
    obtain ⟨cuts', hcuts', rfl⟩ := h
    obtain ⟨reached', -, htokens'⟩ := tokenize_of_splits hcuts' unmatched_nil
    refine ⟨_, htokens', ?_⟩
    rw [List.map_append, filterMap_token?_content]
    rfl
  · intro h
    obtain ⟨e, herror, rfl⟩ := h
    cases rest with
    | nil =>
      rw [htokens] at herror
      cases herror
    | cons c cs =>
      rw [htokens] at herror
      cases herror
      exact ⟨cuts, c, cs, hcuts, hrest, rfl⟩
  · intro h
    obtain ⟨cuts', c, cs, hcuts', hrest', rfl⟩ := h
    obtain ⟨reached', -, htokens'⟩ := tokenize_of_splits hcuts' hrest'
    exact ⟨_, htokens', rfl⟩

/-- **Places are exact.** A token stands behind everything before its lexeme, the end of the input
behind the whole source, and an error behind everything before the remainder that is refused; a place
is a count of line ends and of characters. -/
theorem tokenize_places (source : String) :
    match tokenize source with
    | .ok tokens => ∃ cuts, Splits [] source.toList cuts [] ∧
        (∀ cut ∈ cuts, cut.before ++ cut.lexeme <+: source.toList) ∧
          tokens = cuts.filterMap Cut.token? ++ [⟨.endOfInput, "", placeAfter source.toList⟩]
    | .error e => ∃ cuts before rest, source.toList = before ++ rest ∧
        Splits [] source.toList cuts rest ∧ rest ≠ [] ∧ Unmatched rest ∧
          e.position = placeAfter before := by
  obtain ⟨cuts, reached, rest, hsource, hcuts, hrest, htokens⟩ := tokenize_eq_outcome source
  rw [htokens]
  cases rest with
  | nil =>
    rw [List.append_nil] at hsource
    rw [← hsource]
    exact ⟨cuts, hcuts, fun cut hcut => hcuts.mem_front hcut, rfl⟩
  | cons c cs =>
    exact ⟨cuts, reached, c :: cs, hsource, hcuts, List.cons_ne_nil _ _, hrest, rfl⟩

-- An escaped line end inside a literal begins a line, and a wide character is one column.
example : tokenize "\"é\\\n\"  y" = .ok [⟨.text, "é\n", ⟨1, 1⟩⟩, ⟨.identifier, "y", ⟨2, 4⟩⟩,
    ⟨.endOfInput, "", ⟨2, 5⟩⟩] := by
  cbv

end Lexer

end Parlance
