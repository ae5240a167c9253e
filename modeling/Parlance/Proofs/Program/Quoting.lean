import Parlance.Proofs.Program.Nesting

/-!
# What a syntax error quotes

The report of a syntax error quotes a token that stands where something else was expected, or it
names what is missing. `SyntaxError.Quotes` says of each fault which tokens it can quote: where an
expression should begin, a text literal is never wrong, so only where a statement should begin one is
quoted. Of the things that can be missing, `expectations` leaves out the first word of a construct: its
reader is entered only where the word has been seen (`Quotes.expect_of_peek`), so it never asks in vain.

`Reader.Quotes` follows this through the readers. It is stated at a cursor among given tokens, and also
says of what a reader gives (`Gives`) that a token taken by its kind is one of these tokens and of that
kind: a name and a number are quoted after they have been consumed. The number of tokens ahead is
bounded too, because a reader of arguments whose bound is used up quotes whatever comes next: it has to
be the end of the input.
-/

namespace Parlance

/-- Whether a text has no line end. -/
def isSingleLine (text : String) : Bool := !text.toList.contains '\n'

/-- What a syntax error can say to be missing, other than a semicolon, a block or a call. -/
def expectations : List String :=
  ["Expected method name after 'do'.", "Expected keyword 'and' after method name.",
   "Expected keyword 'use' after 'and'.", "Expected keyword 'value' after 'has'.",
   "Expected numeric literal after 'has value'.",
   "Expected string literal after 'means'. Text values must use double quotes.",
   "Expected variable name after 'set'.", "Expected keyword 'to' after variable name."]

/-- What an error quotes is one of these tokens, and what it names is one of a few things. A number is
quoted only where its token has a text that is none. -/
def SyntaxError.Quotes (tokens : List Token) (e : SyntaxError) : Prop :=
  match e.fault with
  | .unexpectedToken description =>
    ∃ token ∈ tokens, description = token.description ∧ e.position = token.position
  | .unexpectedInExpression description =>
    ∃ token ∈ tokens, token.kind ≠ .text ∧ description = token.description
  | .expected message => message ∈ expectations
  | .missingSemicolon context => isSingleLine context = true
  | .standaloneIdentifier name => ∃ token ∈ tokens, token.kind = .identifier ∧ name = token.text
  | .invalidNumber literal =>
    ∃ token ∈ tokens, token.kind = .number ∧ literal = token.text ∧ Number.read? token.text = none
  | .expectedCallAfterSet => True
  | .expectedBlock keyword => isSingleLine keyword = true
  | .unclosedBlock => True

/-- A cursor is among tokens: whatever it shows is one of them. At most `n` of them are ahead. -/
structure Cursor.Among (tokens : List Token) (n : Nat) (c : Cursor) : Prop where
  ahead : ∀ token ∈ c.ahead, token ∈ tokens
  finish : c.finish ∈ tokens
  length : c.ahead.length ≤ n

namespace Cursor.Among

variable {tokens : List Token} {n : Nat} {c : Cursor}

/-- The next token is one of those the cursor is among. -/
theorem peek (h : c.Among tokens n) : c.peek ∈ tokens := by
  unfold Cursor.peek
  cases hahead : c.ahead.head? with
  | none => exact h.finish
  | some token => exact h.ahead token (List.mem_of_head? hahead)

/-- A cursor stays among its tokens when it moves. -/
theorem advance (h : c.Among tokens n) : c.advance.Among tokens n where
  ahead token htoken := h.ahead token (List.mem_of_mem_tail htoken)
  finish := h.finish
  length := by
    rw [Cursor.advance, List.length_tail]
    exact (Nat.sub_le _ _).trans h.length

theorem mono {m : Nat} (h : c.Among tokens n) (hnm : n ≤ m) : c.Among tokens m :=
  ⟨h.ahead, h.finish, h.length.trans hnm⟩

/-- Behind a token of the input, one token fewer is ahead. -/
theorem behind {kind : TokenKind} (h : c.Among tokens (n + 1)) (hcheck : c.check kind = true)
    (hkind : kind ≠ .endOfInput) : c.advance.Among tokens n where
  ahead := h.advance.ahead
  finish := h.finish
  length := by
    have hlength := h.length
    rw [← Cursor.advance_prepend_peek (Cursor.isAtEnd_of_check hkind hcheck)] at hlength
    exact Nat.le_of_succ_le_succ hlength

end Cursor.Among

namespace Reader

variable {α β : Type} {tokens : List Token} {n : Nat} {c : Cursor}

/-- A reader at a cursor stays among tokens, gives what is so, and fails only with errors that quote
these tokens. -/
structure Quotes (tokens : List Token) (n : Nat) (r : Reader α) (Gives : α → Prop) (c : Cursor) :
    Prop where
  ok : ∀ {v : α} {k : Cursor}, r c = .ok v k → k.Among tokens n ∧ Gives v
  error : ∀ {e : SyntaxError} {k : Cursor}, r c = .error e k → e.Quotes tokens

/-- A reader whose result is of no concern here. -/
abbrev QuotesOnly (tokens : List Token) (n : Nat) (r : Reader α) (c : Cursor) : Prop :=
  Quotes tokens n r (fun _ => True) c

namespace Quotes

variable {Gives : α → Prop}

/-! ## Rules -/

/-- A reader quotes what another quotes that it is the same as. -/
theorem congr {r s : Reader α} {k : Cursor} (h : r c = s k) (hs : Quotes tokens n s Gives k) :
    Quotes tokens n r Gives c :=
  ⟨fun hr => hs.ok (h ▸ hr), fun hr => hs.error (h ▸ hr)⟩

theorem mono {m : Nat} {r : Reader α} (h : Quotes tokens n r Gives c) (hnm : n ≤ m) :
    Quotes tokens m r Gives c :=
  ⟨fun hr => ⟨(h.ok hr).1.mono hnm, (h.ok hr).2⟩, h.error⟩

/-- A reader that succeeds quotes nothing. -/
theorem gives {r : Reader α} {v : α} {k : Cursor} (hr : r c = .ok v k) (hk : k.Among tokens n)
    (hv : Gives v) : Quotes tokens n r Gives c where
  ok h := by
    rw [hr] at h
    cases h
    exact ⟨hk, hv⟩
  error h := by
    rw [hr] at h
    cases h

theorem pure {v : α} (hc : c.Among tokens n) : QuotesOnly tokens n (Pure.pure v) c :=
  gives rfl hc trivial

/-- A reader that fails quotes what its error does. -/
theorem fails {r : Reader α} {e : SyntaxError} {k : Cursor} (hr : r c = .error e k)
    (he : e.Quotes tokens) : Quotes tokens n r Gives c where
  ok h := by
    rw [hr] at h
    cases h
  error h := by
    rw [hr] at h
    cases h
    exact he

/-- A failure at the next token quotes this token, or nothing. -/
theorem failHere {fault : SyntaxFault}
    (h : SyntaxError.Quotes tokens ⟨fault, c.peek.position⟩) :
    Quotes tokens n (Reader.failHere fault) Gives c :=
  fails (failHere_apply fault c) h

/-- A sequence quotes what its parts do, and the second part knows what the first gives. -/
theorem bind {m : Nat} {r : Reader α} {f : α → Reader β} {Then : β → Prop}
    (hr : Quotes tokens n r Gives c)
    (hf : ∀ v k, k.Among tokens n → Gives v → Quotes tokens m (f v) Then k) :
    Quotes tokens m (r >>= f) Then c where
  ok h := by
    obtain ⟨v, k, hv, hw⟩ := bind_eq_ok.mp h
    obtain ⟨hk, hgives⟩ := hr.ok hv
    exact (hf v k hk hgives).ok hw
  error h := by
    rcases bind_eq_error.mp h with he | ⟨v, k, hv, he⟩
    · exact hr.error he
    · obtain ⟨hk, hgives⟩ := hr.ok hv
      exact (hf v k hk hgives).error he

theorem ite {p : Prop} [Decidable p] {r s : Reader α} (hr : Quotes tokens n r Gives c)
    (hs : Quotes tokens n s Gives c) : Quotes tokens n (if p then r else s) Gives c := by
  split
  · exact hr
  · exact hs

/-- The token that begins a construct is consumed, and one token fewer is ahead. -/
theorem advance {kind : TokenKind} (hc : c.Among tokens (n + 1)) (hpeek : c.peek.kind = kind)
    (hkind : kind ≠ .endOfInput) :
    Quotes tokens n Reader.advance (fun t => t ∈ tokens ∧ t.kind = kind) c :=
  gives (advance_apply c) (hc.behind (Cursor.check_iff.mpr hpeek) hkind) ⟨hc.peek, hpeek⟩

/-- A reader that was chosen by its first token finds it there, whatever it would say otherwise. -/
theorem expect_of_peek {kind : TokenKind} {message : String} (hc : c.Among tokens (n + 1))
    (hpeek : c.peek.kind = kind) (hkind : kind ≠ .endOfInput) :
    Quotes tokens n (Reader.expect kind message) (fun t => t ∈ tokens ∧ t.kind = kind) c :=
  congr (expect_of_check (Cursor.check_iff.mpr hpeek)) (advance hc hpeek hkind)

/-- A required token is one of the tokens, and a missing one is named in the words of the list. -/
theorem expect {kind : TokenKind} {message : String} (hc : c.Among tokens (n + 1))
    (hmessage : message ∈ expectations) (hkind : kind ≠ .endOfInput) :
    Quotes tokens n (Reader.expect kind message) (fun t => t ∈ tokens ∧ t.kind = kind) c := by
  have happly := expect_apply kind message c
  by_cases hcheck : c.check kind = true
  · rw [if_pos hcheck] at happly
    exact gives happly (hc.behind hcheck hkind) ⟨hc.peek, Cursor.check_iff.mp hcheck⟩
  · rw [if_neg hcheck] at happly
    exact fails happly hmessage

/-- A missing semicolon is reported with a context of one line. -/
theorem expectSemicolon {context : String} (hc : c.Among tokens n)
    (hcontext : isSingleLine context = true) :
    QuotesOnly tokens n (Reader.expectSemicolon context) c := by
  have happly := expectSemicolon_apply context c
  by_cases hcheck : c.check .semicolon = true
  · rw [if_pos hcheck] at happly
    exact gives happly hc.advance trivial
  · rw [if_neg hcheck] at happly
    exact fails happly hcontext

/-- An optional token decides how to go on. Behind it, one token fewer is ahead. -/
theorem accept?_bind {kind : TokenKind} {m : Nat} {yes no : Reader α}
    (hc : c.Among tokens (n + 1)) (hkind : kind ≠ .endOfInput)
    (hyes : ∀ {k : Cursor}, k.Among tokens n → Quotes tokens m yes Gives k)
    (hno : Quotes tokens m no Gives c) :
    Quotes tokens m (Reader.accept? kind >>= fun t => if t.isSome then yes else no) Gives c := by
  by_cases hcheck : c.check kind = true
  · exact congr (accept?_bind_of_check hcheck) (hyes (hc.behind hcheck hkind))
  · exact congr (accept?_bind_of_not_check (Bool.eq_false_iff.mpr hcheck)) hno

/-- A number token is quoted where its text is no number. -/
theorem numberOf {token : Token} (hc : c.Among tokens n) (htoken : token ∈ tokens)
    (hkind : token.kind = .number) : QuotesOnly tokens n (Reader.numberOf token) c := by
  have happly := numberOf_apply token c
  cases hread : Number.read? token.text with
  | some value =>
    rw [hread] at happly
    exact gives happly hc trivial
  | none =>
    rw [hread] at happly
    exact fails happly ⟨token, htoken, hkind, rfl, hread⟩

/-! ## Expressions -/

/-- At its `do`, a call does not miss it. -/
theorem callWith {arguments : Reader (List Expression)} (hc : c.Among tokens (n + 1))
    (hkind : c.peek.kind = .doWord)
    (h : ∀ {k : Cursor}, k.Among tokens n → QuotesOnly tokens n arguments k) :
    QuotesOnly tokens n (Reader.callWith arguments) c := by
  have hstep : n ≤ n + 1 := Nat.le_succ n
  refine bind (expect_of_peek hc hkind (by decide)) fun _ k hk _ => ?_
  refine bind (expect (hk.mono hstep) (by decide) (by decide)) fun _ k hk _ => ?_
  refine bind (expect (hk.mono hstep) (by decide) (by decide)) fun _ k hk _ => ?_
  refine bind (expect (hk.mono hstep) (by decide) (by decide)) fun _ k hk _ => ?_
  exact congr (peek_bind _ k) (ite (pure hk) (bind (h hk) fun _ k hk _ => pure hk))

/-- What begins no expression is quoted; a text begins one, so no text is. -/
theorem expressionWith {arguments : Reader (List Expression)} (hc : c.Among tokens (n + 1))
    (h : ∀ {k : Cursor}, k.Among tokens n → QuotesOnly tokens n arguments k) :
    QuotesOnly tokens n (Reader.expressionWith arguments) c := by
  refine congr (peek_bind _ c) ?_
  split
  · rename_i hkind
    refine bind (advance hc hkind (by decide)) fun start k hk hstart => ?_
    exact bind (numberOf hk hstart.1 hstart.2) fun _ k hk _ => pure hk
  · rename_i hkind
    exact bind (advance hc hkind (by decide)) fun _ k hk _ => pure hk
  · rename_i hkind
    exact bind (advance hc hkind (by decide)) fun _ k hk _ => pure hk
  · rename_i hkind
    exact bind (callWith hc hkind h) fun _ k hk _ => pure hk
  · rename_i htext _ _
    exact failHere ⟨c.peek, hc.peek, htext, rfl⟩

/-- Where an argument is expected and no bound is left, the input is over. -/
theorem arguments (bound : Nat) {c : Cursor} (hc : c.Among tokens bound) :
    QuotesOnly tokens bound (Reader.arguments bound) c := by
  induction bound generalizing c with
  | zero =>
    have hend : c.isAtEnd = true :=
      List.isEmpty_iff_length_eq_zero.mpr (Nat.le_zero.mp hc.length)
    have hkind : c.peek.kind ≠ .text := by
      rw [Cursor.peek_kind_of_isAtEnd hend]
      decide
    exact congr (peek_bind _ c) (failHere ⟨c.peek, hc.peek, hkind, rfl⟩)
  | succ bound ih =>
    have hstep : bound ≤ bound + 1 := Nat.le_succ bound
    refine bind (expressionWith hc ih) fun _ k hk _ => ?_
    refine accept?_bind (hk.mono hstep) (by decide) (fun hk => ?_) (pure (hk.mono hstep))
    exact bind (ih hk) fun _ k hk _ => pure (hk.mono hstep)

/-! ## Statements -/

/-- A name that gets no value is quoted as it is written. -/
theorem assignment (hc : c.Among tokens (n + 1)) (hkind : c.peek.kind = .identifier) :
    QuotesOnly tokens n Reader.assignment c := by
  have hstep : n ≤ n + 1 := Nat.le_succ n
  refine bind (expect_of_peek hc hkind (by decide)) fun name k hk hname => ?_
  refine accept?_bind (hk.mono hstep) (by decide) (fun hk => ?_) ?_
  · refine bind (expect (hk.mono hstep) (by decide) (by decide)) fun _ k hk _ => ?_
    refine bind (expect (hk.mono hstep) (by decide) (by decide)) fun literal k hk hliteral => ?_
    refine bind (numberOf hk hliteral.1 hliteral.2) fun _ k hk _ => ?_
    exact bind (expectSemicolon hk (by decide)) fun _ k hk _ => pure hk
  · refine accept?_bind (hk.mono hstep) (by decide) (fun hk => ?_) ?_
    · refine bind (expect (hk.mono hstep) (by decide) (by decide)) fun _ k hk _ => ?_
      exact bind (expectSemicolon hk (by decide)) fun _ k hk _ => pure hk
    · exact fails (throw_apply _ k) ⟨name, hname.1, hname.2, rfl⟩

/-- At its `set`, a statement does not miss it. -/
theorem setFromCall {call : Reader Call} (hc : c.Among tokens (n + 1))
    (hkind : c.peek.kind = .setWord)
    (h : ∀ {k : Cursor}, k.Among tokens (n + 1) → k.peek.kind = .doWord → QuotesOnly tokens n call k) :
    QuotesOnly tokens n (Reader.setFromCall call) c := by
  have hstep : n ≤ n + 1 := Nat.le_succ n
  refine bind (expect_of_peek hc hkind (by decide)) fun _ k hk _ => ?_
  refine bind (expect (hk.mono hstep) (by decide) (by decide)) fun _ k hk _ => ?_
  refine bind (expect (hk.mono hstep) (by decide) (by decide)) fun _ k hk _ => ?_
  refine congr (check_bind _ _ k) ?_
  split
  · rename_i hcheck
    refine bind (h (hk.mono hstep) (Cursor.check_iff.mp hcheck)) fun _ k hk _ => ?_
    exact bind (expectSemicolon hk (by decide)) fun _ k hk _ => pure hk
  · exact failHere trivial

variable {inside : Reader (List Statement)}

/-- At its brace, a block does not miss it. -/
theorem blockWith (hc : c.Among tokens (n + 1)) (hkind : c.peek.kind = .leftBrace)
    (h : ∀ {k : Cursor}, k.Among tokens n → QuotesOnly tokens n inside k) :
    QuotesOnly tokens n (Reader.blockWith inside) c := by
  refine bind (advance hc hkind (by decide)) fun _ k hk _ => bind (h hk) fun _ k hk _ => ?_
  exact accept?_bind (hk.mono (Nat.le_succ n)) (by decide) pure (failHere trivial)

/-- A missing block is reported with the keyword that requires it. -/
theorem requiredBlockWith {keyword : String} (hc : c.Among tokens (n + 1))
    (hkeyword : isSingleLine keyword = true)
    (h : ∀ {k : Cursor}, k.Among tokens n → QuotesOnly tokens n inside k) :
    QuotesOnly tokens n (Reader.requiredBlockWith inside keyword) c := by
  refine congr (check_bind _ _ c) ?_
  split
  · rename_i hcheck
    exact blockWith hc (Cursor.check_iff.mp hcheck) h
  · exact failHere hkeyword

/-- At its `if`, a statement does not miss it. -/
theorem condition {expression : Reader Expression} (hc : c.Among tokens (n + 1))
    (hkind : c.peek.kind = .ifWord)
    (hexpression : ∀ {k : Cursor}, k.Among tokens (n + 1) → QuotesOnly tokens n expression k)
    (h : ∀ {k : Cursor}, k.Among tokens n → QuotesOnly tokens n inside k) :
    QuotesOnly tokens n (Reader.condition expression (Reader.requiredBlockWith inside)) c := by
  have hstep : n ≤ n + 1 := Nat.le_succ n
  refine bind (expect_of_peek hc hkind (by decide)) fun _ k hk _ => ?_
  refine bind (hexpression (hk.mono hstep)) fun _ k hk _ => ?_
  refine bind (requiredBlockWith (hk.mono hstep) (by decide) h) fun _ k hk _ => ?_
  refine accept?_bind (hk.mono hstep) (by decide) (fun hk => ?_) (pure hk)
  exact bind (requiredBlockWith (hk.mono hstep) (by decide) h) fun _ k hk _ => pure hk

/-- Only where a statement should begin, any token can be quoted. -/
theorem statementWith (hc : c.Among tokens (n + 1))
    (h : ∀ {k : Cursor}, k.Among tokens n → QuotesOnly tokens n inside k) :
    QuotesOnly tokens n (Reader.statementWith n inside) c := by
  have hstep : n ≤ n + 1 := Nat.le_succ n
  have hcall {k : Cursor} (hk : k.Among tokens (n + 1)) (hkind : k.peek.kind = .doWord) :=
    callWith hk hkind (arguments n)
  have hexpression {k : Cursor} (hk : k.Among tokens (n + 1)) := expressionWith hk (arguments n)
  refine congr (peek_bind _ c) ?_
  split
  · rename_i hkind
    exact bind (blockWith hc hkind h) fun _ k hk _ => pure hk
  · rename_i hkind
    refine bind (advance hc hkind (by decide)) fun _ k hk _ => ?_
    refine bind (hexpression (hk.mono hstep)) fun _ k hk _ => ?_
    exact bind (expectSemicolon hk (by decide)) fun _ k hk _ => pure hk
  · rename_i hkind
    refine bind (hcall hc hkind) fun _ k hk _ => ?_
    exact bind (expectSemicolon hk (by decide)) fun _ k hk _ => pure hk
  · rename_i hkind
    exact setFromCall hc hkind hcall
  · rename_i hkind
    exact condition hc hkind hexpression h
  · rename_i hkind
    refine bind (expect_of_peek hc hkind (by decide)) fun _ k hk _ => ?_
    refine bind (hexpression (hk.mono hstep)) fun _ k hk _ => ?_
    exact bind (requiredBlockWith (hk.mono hstep) (by decide) h) fun _ k hk _ => pure hk
  · rename_i hkind
    exact assignment hc hkind
  · exact failHere ⟨c.peek, hc.peek, rfl, rfl⟩

/-- Statements quote their tokens, within any bound that reaches the tokens ahead. -/
theorem statements (bound : Nat) {c : Cursor} (hc : c.Among tokens bound) :
    QuotesOnly tokens bound (Reader.statements bound) c := by
  induction bound generalizing c with
  | zero => exact pure hc
  | succ bound ih =>
    have hstep : bound ≤ bound + 1 := Nat.le_succ bound
    refine congr (isAtEnd_bind _ c) (congr (check_bind _ _ c) (ite (pure hc) ?_))
    refine bind (statementWith hc ih) fun _ k hk _ => ?_
    exact bind (ih hk) fun _ k hk _ => pure (hk.mono hstep)

/-- A program quotes the tokens it is read from. -/
theorem program (hc : c.Among tokens c.ahead.length) :
    QuotesOnly tokens c.ahead.length Reader.program c := by
  refine congr (program_apply c) (bind (statements _ hc) fun _ k hk _ => ?_)
  refine congr (isAtEnd_bind _ k) (ite (pure hk) (congr (peek_bind _ k) ?_))
  exact failHere ⟨k.peek, hk.peek, rfl, rfl⟩

end Quotes

end Reader

/-- What an error quotes stands in the list, or in any list that has its tokens and its end. -/
theorem quotes_of_parse_among {tokens others : List Token} {e : SyntaxError}
    (hahead : ∀ token ∈ tokens, token ∈ others) (hfinish : (Cursor.ofTokens tokens).finish ∈ others)
    (h : parse tokens = .error e) : e.Quotes others := by
  obtain ⟨k, hk⟩ := parse_eq_error.mp h
  refine (Reader.Quotes.program ⟨fun token htoken => ?_, hfinish, Nat.le_refl _⟩).error hk
  exact hahead token ((List.takeWhile_sublist _).subset htoken)

/-- A syntax error quotes a token of the list, or the end of the input. -/
theorem quotes_of_parse_error {tokens : List Token} {e : SyntaxError} (h : parse tokens = .error e) :
    e.Quotes ((Cursor.ofTokens tokens).finish :: tokens) :=
  quotes_of_parse_among (fun _ => List.mem_cons_of_mem _) List.mem_cons_self h

/-- A syntax error quotes tokens of the list, if one of them ends the input. -/
theorem quotes_of_parse {tokens : List Token} {last : Token} {e : SyntaxError}
    (hlast : last ∈ tokens) (hkind : last.kind = .endOfInput) (h : parse tokens = .error e) :
    e.Quotes tokens := by
  obtain ⟨found, hfound⟩ : ∃ found, tokens.find? (·.kind == .endOfInput) = some found :=
    Option.isSome_iff_exists.mp (List.find?_isSome.mpr ⟨last, hlast, by simp [hkind]⟩)
  refine quotes_of_parse_among (fun _ => id) ?_ h
  show (tokens.find? (·.kind == .endOfInput)).getD (Cursor.syntheticEnd tokens) ∈ tokens
  rw [hfound]
  exact List.mem_of_find?_eq_some hfound

end Parlance
