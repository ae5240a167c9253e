import Mathlib.Data.List.TakeWhile
import Parlance.Proofs.Program.Lookahead

/-!
# Errors at the earliest token

A list of tokens that is no program is refused at the first token that no program has there
(`parse_error_at_earliest_token`):

* everything before that token begins some program, unless the fault is a number token whose text is
  no number;
* nothing behind that token was looked at, so no other continuation is accepted;
* the error stands at that token, or at the one before it for the two faults found late.

The first part is what readers follow (`Follows`), the second their single token of lookahead
(`LooksOneAhead`). Here both are carried from cursors to lists of tokens, where the end of the input
may be a token of the list or one made up behind it.
-/

namespace Parlance

open Reader

/-! ## Lists of tokens as cursors -/

namespace Cursor

variable {tokens rest : List Token}

/-- A token that does not end the input is put before the cursor of the others. -/
theorem ofTokens_cons {token : Token} (h : token.kind ≠ .endOfInput) (hrest : rest ≠ []) :
    ofTokens (token :: rest) = (ofTokens rest).prepend [token] := by
  have hlast : (token :: rest).getLast? = rest.getLast? := by
    obtain ⟨next, others, rfl⟩ := List.exists_cons_of_ne_nil hrest
    rw [List.getLast?_cons_cons]
  simp only [ofTokens, prepend, syntheticEnd, hlast, mk.injEq]
  constructor
  · rw [List.takeWhile_cons_of_pos (by simpa using h)]
    rfl
  · rw [List.find?_cons_of_neg (by simpa using h)]

/-- Tokens of the input stand before the cursor of what follows them. -/
theorem ofTokens_append (h : ∀ token ∈ tokens, token.kind ≠ .endOfInput) (hrest : rest ≠ []) :
    ofTokens (tokens ++ rest) = (ofTokens rest).prepend tokens := by
  induction tokens with
  | nil => rfl
  | cons token tokens ih =>
    have htokens : tokens ++ rest ≠ [] := List.append_ne_nil_of_right_ne_nil _ hrest
    rw [List.cons_append, ofTokens_cons (h token List.mem_cons_self) htokens,
      ih fun t ht => h t (List.mem_cons_of_mem _ ht), ← prepend_append]
    rfl

/-- What follows the next token is not seen from here, be it the end of the input or not. -/
theorem alike_ofTokens_cons (token : Token) (rest others : List Token) :
    (ofTokens (token :: rest)).Alike (ofTokens (token :: others)) := by
  by_cases h : token.kind = .endOfInput
  · have hkind : (token.kind != .endOfInput) = false := by simp [h]
    constructor
    · simp [peek, ofTokens, h]
    · simp [isAtEnd, ofTokens, hkind]
  · have hkind : (token.kind != .endOfInput) = true := by simp [h]
    constructor
    · simp [peek, ofTokens, hkind]
    · simp [isAtEnd, ofTokens, hkind]

/-- In a list without an end of the input, every token is ahead. -/
theorem ahead_ofTokens (h : ∀ token ∈ tokens, token.kind ≠ .endOfInput) :
    (ofTokens tokens).ahead = tokens :=
  List.takeWhile_eq_self_iff.mpr fun token htoken => by simpa using h token htoken

/-- Such a list ends in a token that is made up. -/
theorem finish_ofTokens (h : ∀ token ∈ tokens, token.kind ≠ .endOfInput) :
    (ofTokens tokens).finish = syntheticEnd tokens := by
  show (tokens.find? (·.kind == .endOfInput)).getD (syntheticEnd tokens) = _
  rw [List.find?_eq_none.mpr fun token htoken => by simpa using h token htoken]
  rfl

/-- The first token of a list is next, also if it ends the input. -/
theorem peek_ofTokens_cons (token : Token) (rest : List Token) :
    (ofTokens (token :: rest)).peek = token := by
  rw [(alike_ofTokens_cons token rest []).peek]
  by_cases h : token.kind = .endOfInput <;> simp [peek, ofTokens, h]

/-- Tokens between a list of tokens and a cursor within it are the first of the list, and none of
them ends the input. -/
theorem eq_take_of_ofTokens_eq_prepend {front : List Token} {k : Cursor}
    (h : ofTokens tokens = k.prepend front) :
    front = tokens.take front.length ∧ ∀ token ∈ front, token.kind ≠ .endOfInput := by
  have hahead : tokens.takeWhile (·.kind != .endOfInput) = front ++ k.ahead := congrArg ahead h
  constructor
  · have hprefix : front ++ k.ahead <+: tokens := hahead ▸ List.takeWhile_prefix _
    exact List.prefix_iff_eq_take.mp ((List.prefix_append front k.ahead).trans hprefix)
  · intro token htoken
    have hmem : token ∈ tokens.takeWhile (·.kind != .endOfInput) :=
      hahead ▸ List.mem_append_left _ htoken
    simpa using List.mem_takeWhile_imp hmem

/-- A cursor within a list of tokens is the cursor before the rest of the list. -/
theorem eq_ofTokens_of_prepend {front : List Token} {token : Token} {k : Cursor}
    (h : ofTokens (front ++ token :: rest) = k.prepend front) : k = ofTokens (token :: rest) := by
  have hkinds := (eq_take_of_ofTokens_eq_prepend h).2
  rw [ofTokens_append hkinds (List.cons_ne_nil _ _)] at h
  exact (eq_of_prepend_eq h).symm

end Cursor

/-! ## Where reading stops -/

/-- How many tokens are consumed where reading a list of tokens as a program stops. -/
def tokensConsumed (tokens : List Token) : Nat :=
  (Cursor.ofTokens tokens).ahead.length - (left (program (Cursor.ofTokens tokens))).ahead.length

/-- Tokens are refused if reading a program from the cursor before them fails. -/
theorem parse_eq_error {tokens : List Token} {e : SyntaxError} :
    parse tokens = .error e ↔ ∃ k, program (Cursor.ofTokens tokens) = .error e k := by
  unfold parse
  cases program (Cursor.ofTokens tokens) with
  | ok value k => simp
  | error e' k =>
    constructor
    · intro h
      cases h
      exact ⟨k, rfl⟩
    · intro h
      obtain ⟨_, h⟩ := h
      cases h
      rfl

/-- At an error, the consumed tokens are the first ones of the list. -/
theorem exists_of_parse_eq_error {tokens : List Token} {e : SyntaxError}
    (h : parse tokens = .error e) :
    ∃ front k, program (Cursor.ofTokens tokens) = .error e k ∧ Cursor.ofTokens tokens = k.prepend front ∧
      tokensConsumed tokens = front.length ∧ SyntaxError.PlacedBy e front k ∧
        (e.fault.isInvalidNumber = false → ∃ v more, StatementsSpelled v (front ++ more)) := by
  obtain ⟨k, hk⟩ := parse_eq_error.mp h
  obtain ⟨front, hfront, hplaced, hmore⟩ := (follows_programWithin _ [] _).error hk
  refine ⟨front, k, hk, hfront, ?_, hplaced, hmore⟩
  rw [tokensConsumed, hk, hfront, left, Cursor.ahead_prepend, List.length_append]
  omega

/-- Behind the token where an error was found, anything may stand instead. -/
theorem parse_append_cons_eq_error {front rest others : List Token} {token : Token}
    {e : SyntaxError} (h : parse (front ++ token :: rest) = .error e)
    (hn : tokensConsumed (front ++ token :: rest) = front.length) :
    parse (front ++ token :: others) = .error e := by
  obtain ⟨consumed, k, hk, hfront, hlength, -, -⟩ := exists_of_parse_eq_error h
  obtain ⟨htake, hkinds⟩ := Cursor.eq_take_of_ofTokens_eq_prepend hfront
  obtain rfl : consumed = front := by rw [htake, ← hlength, hn, List.take_left]
  obtain rfl := Cursor.eq_ofTokens_of_prepend hfront
  let d := Cursor.ofTokens (token :: others)
  have hd : Cursor.ofTokens (consumed ++ token :: others) = d.prepend consumed :=
    Cursor.ofTokens_append hkinds (List.cons_ne_nil _ _)
  -- A bound that is large enough for both lists makes the two runs comparable.
  obtain ⟨bound, hbound, hbound'⟩ :
      ∃ bound, (Cursor.ofTokens (consumed ++ token :: rest)).ahead.length ≤ bound ∧
        (d.prepend consumed).ahead.length ≤ bound :=
    ⟨_, Nat.le_add_right _ _, Nat.le_add_left _ _⟩
  rw [program_eq_programWithin hbound, hfront] at hk
  have hstable := (LooksOneAhead.programWithin bound).stable (by rw [hk]; rfl)
    (Cursor.alike_ofTokens_cons token rest others)
  rw [hk] at hstable
  refine parse_eq_error.mpr ⟨d, ?_⟩
  rw [hd, program_eq_programWithin hbound']
  exact hstable

/-- Tokens that begin the spelling of a program begin a list that is read. -/
theorem exists_parse_append_eq_ok {front more : List Token} {program : Program}
    (h : StatementsSpelled program (front ++ more)) : parse (front ++ more) = .ok program := by
  rw [parse_eq_ok_iff, Cursor.ahead_ofTokens fun _ => kind_ne_endOfInput_of_spelled h]
  exact h

/-- The next token, seen from behind the first tokens of a list. -/
theorem Cursor.peek_of_prepend {tokens front : List Token} {k : Cursor}
    (h : ofTokens tokens = k.prepend front) :
    k.peek = tokens[front.length]?.getD (syntheticEnd tokens) := by
  obtain ⟨htake, hkinds⟩ := eq_take_of_ofTokens_eq_prepend h
  have hsplit : tokens = front ++ tokens.drop front.length := by
    conv_lhs => rw [← List.take_append_drop front.length tokens, ← htake]
  cases hrest : tokens.drop front.length with
  | cons token rest =>
    rw [hrest] at hsplit
    subst hsplit
    obtain rfl := eq_ofTokens_of_prepend h
    rw [peek_ofTokens_cons, List.getElem?_append_right (Nat.le_refl _), Nat.sub_self]
    rfl
  | nil =>
    -- Everything is consumed, so the end of the input is made up.
    rw [hrest, List.append_nil] at hsplit
    subst hsplit
    have hahead : tokens = tokens ++ k.ahead := by
      rw [← ahead_prepend, ← h, ahead_ofTokens hkinds]
    have hfinish : k.finish = syntheticEnd tokens := by
      rw [← finish_prepend k tokens, ← h, finish_ofTokens hkinds]
    rw [peek, List.self_eq_append_right.mp hahead, hfinish, List.getElem?_eq_none (Nat.le_refl _)]
    rfl

/-- The next token stands where the list has it; behind the list, the place is that of the last
token. -/
theorem position_peek_of_prepend {tokens front : List Token} {k : Cursor}
    (h : Cursor.ofTokens tokens = k.prepend front) :
    k.peek.position =
      ((tokens[front.length]?.or tokens.getLast?).map Token.position).getD ⟨1, 1⟩ := by
  rw [Cursor.peek_of_prepend h]
  cases tokens[front.length]? <;> rfl

/-- **Syntax errors stand at the earliest possible token.** Let `n` tokens be consumed where reading
fails, so that the others are still ahead. If a token follows them, every list with the same first
`n + 1` tokens fails with the same error. Unless a number token has no value, the consumed tokens
begin a list that is read. The error stands at token `n`, or where the last token stands when there
is none; the two faults that are found late stand at token `n - 1`. -/
theorem parse_error_at_earliest_token {tokens : List Token} {e : SyntaxError}
    (h : parse tokens = .error e) :
    let n := tokensConsumed tokens
    (left (program (Cursor.ofTokens tokens))).ahead = (Cursor.ofTokens tokens).ahead.drop n ∧
    (n < tokens.length → ∀ others : List Token, others.take (n + 1) = tokens.take (n + 1) →
      parse others = .error e) ∧
    (e.fault.isInvalidNumber = false →
      ∃ more program, parse (tokens.take n ++ more) = .ok program) ∧
    if e.fault.isLate then
      ∃ last, 0 < n ∧ tokens[n - 1]? = some last ∧ e.position = last.position
    else e.position = ((tokens[n]?.or tokens.getLast?).map Token.position).getD ⟨1, 1⟩ := by
  intro n
  obtain ⟨front, k, hk, hfront, hlength, hplaced, hmore⟩ := exists_of_parse_eq_error h
  obtain ⟨htake, hkinds⟩ := Cursor.eq_take_of_ofTokens_eq_prepend hfront
  have hn : n = front.length := hlength
  rw [← hn] at htake
  refine ⟨?_, fun hlt others hothers => ?_, fun hnumber => ?_, ?_⟩
  · rw [hk, hfront, hn, Cursor.ahead_prepend, List.drop_left]
    rfl
  · have hnext : tokens.take (n + 1) = front ++ [tokens[n]] := by
      rw [List.take_succ_eq_append_getElem hlt, ← htake]
    have hsplit : ∀ list : List Token, list.take (n + 1) = tokens.take (n + 1) →
        list = front ++ tokens[n] :: list.drop (n + 1) := by
      intro list hlist
      conv_lhs => rw [← List.take_append_drop (n + 1) list, hlist, hnext]
      rw [List.append_assoc]
      rfl
    rw [hsplit others hothers]
    rw [hsplit tokens rfl] at h
    refine parse_append_cons_eq_error h ?_
    rw [← hsplit tokens rfl]
    exact hlength
  · obtain ⟨program, more, hspelled⟩ := hmore hnumber
    rw [← htake]
    exact ⟨more, program, exists_parse_append_eq_ok hspelled⟩
  · rw [hn, ← position_peek_of_prepend hfront]
    unfold SyntaxError.PlacedBy at hplaced
    split at hplaced
    · rename_i hlate
      obtain ⟨last, hlast, hposition⟩ := hplaced
      have hpos : 0 < front.length := List.length_pos_iff.mpr fun hnil => by simp [hnil] at hlast
      rw [if_pos hlate]
      refine ⟨last, hpos, ?_, hposition⟩
      rw [List.getLast?_eq_getElem?] at hlast
      rw [← hlast, ← List.getElem?_take_of_lt (Nat.sub_lt hpos Nat.zero_lt_one), ← hn, ← htake]
    · rename_i hlate
      rw [if_neg hlate]
      exact hplaced

/-- Without an expression, `say` is refused at the semicolon whatever follows it. -/
theorem parse_error_at_semicolon :
    let tokens : List Token :=
      [⟨.sayWord, "say", ⟨1, 1⟩⟩, ⟨.semicolon, ";", ⟨1, 5⟩⟩, ⟨.identifier, "x", ⟨1, 7⟩⟩]
    let e : SyntaxError := ⟨.unexpectedInExpression ";", ⟨1, 5⟩⟩
    parse tokens = .error e ∧ tokensConsumed tokens = 1 ∧
      (∀ others : List Token, others.take 2 = tokens.take 2 → parse others = .error e) ∧
        (∃ more program, parse (tokens.take 1 ++ more) = .ok program) ∧ e.position = ⟨1, 5⟩ := by
  intro tokens e
  have herror : parse tokens = .error e := rfl
  obtain ⟨-, hothers, hmore, hposition⟩ := parse_error_at_earliest_token herror
  exact ⟨herror, rfl, hothers (by decide), hmore rfl, hposition⟩

end Parlance
