import Parlance.Proofs.Program.CorrectPrefix

/-!
# Braces among the tokens of a program

Braces stand in a program only around its blocks. So the tokens of a program nest (`Nested`): nowhere
are more blocks closed than opened, and in the end there are as many. And where reading stops because
a block is still open, it has come to the end of the tokens, which open more blocks than they close.

`Nests` states both of a reader at a cursor, and sequences keep it. The bound of a reader matters only
here and there: what is read between braces stops at a closing brace or at the end of the input, and
this needs a bound that is not reached before (`Fills`).
-/

namespace Parlance

/-! ## Nested tokens -/

/-- How a token of a kind changes the number of open blocks. -/
def TokenKind.opens : TokenKind → Int
  | leftBrace => 1
  | rightBrace => -1
  | _ => 0

/-- How many more blocks tokens open than they close. -/
def netOpened : List Token → Int
  | [] => 0
  | token :: tokens => token.kind.opens + netOpened tokens

@[simp] theorem netOpened_nil : netOpened [] = 0 := rfl

@[simp] theorem netOpened_cons (token : Token) (tokens : List Token) :
    netOpened (token :: tokens) = token.kind.opens + netOpened tokens := rfl

/-- What two lists open adds up. -/
@[simp] theorem netOpened_append (first second : List Token) :
    netOpened (first ++ second) = netOpened first + netOpened second := by
  induction first with
  | nil => simp
  | cons token first ih => rw [List.cons_append, netOpened_cons, netOpened_cons, ih, Int.add_assoc]

/-- Tokens open and close blocks in the way that braces nest. -/
structure Nested (tokens : List Token) : Prop where
  front : ∀ {front : List Token}, front <+: tokens → 0 ≤ netOpened front
  closed : netOpened tokens = 0

/-- No tokens are nested. -/
theorem nested_nil : Nested [] where
  front h := by simp [List.prefix_nil.mp h]
  closed := rfl

/-- A token that is no brace is nested by itself. -/
theorem nested_singleton {token : Token} (h : token.kind.opens = 0) : Nested [token] where
  front hfront := by
    rcases List.prefix_cons_iff.mp hfront with rfl | ⟨rest, rfl, hrest⟩
    · exact Int.le_refl 0
    · simp [List.prefix_nil.mp hrest, h]
  closed := by simp [h]

/-- Nested tokens one behind the other are nested. -/
theorem Nested.append {first second : List Token} (hfirst : Nested first)
    (hsecond : Nested second) : Nested (first ++ second) where
  front {front} hfront := by
    rcases List.prefix_or_prefix_of_prefix hfront (List.prefix_append first second) with h | h
    · exact hfirst.front h
    · obtain ⟨rest, rfl⟩ := h
      have hrest := hsecond.front ((List.prefix_append_right_inj first).mp hfront)
      rw [netOpened_append, hfirst.closed]
      omega
  closed := by rw [netOpened_append, hfirst.closed, hsecond.closed, Int.add_zero]

/-- Nested tokens between two braces. -/
theorem Nested.block {start closed : Token} {body : List Token} (hbody : Nested body)
    (hstart : start.kind = .leftBrace) (hclosed : closed.kind = .rightBrace) :
    Nested (start :: (body ++ [closed])) where
  front {front} hfront := by
    rcases List.prefix_cons_iff.mp hfront with rfl | ⟨rest, rfl, hrest⟩
    · exact Int.le_refl 0
    rw [netOpened_cons, hstart, TokenKind.opens]
    rcases List.prefix_concat_iff.mp hrest with rfl | hrest
    · simp [hbody.closed, hclosed, TokenKind.opens]
    · have := hbody.front hrest
      omega
  closed := by simp [hbody.closed, hstart, hclosed, TokenKind.opens]

namespace Reader

variable {α β : Type} {c : Cursor}

/-- A reader at a cursor consumes nested tokens, and where it finds a block that is still open, the
tokens ahead open more blocks than they close. -/
structure Nests (r : Reader α) (c : Cursor) : Prop where
  ok : ∀ {v : α} {k : Cursor}, r c = .ok v k → ∃ tokens, c = k.prepend tokens ∧ Nested tokens
  error : ∀ {e : SyntaxError} {k : Cursor}, r c = .error e k → e.fault = .unclosedBlock →
    0 < netOpened c.ahead

namespace Nests

/-! ## Rules -/

/-- Readers with one outcome nest alike. -/
theorem congr {r s : Reader α} (h : r c = s c) (hs : Nests s c) : Nests r c :=
  ⟨fun hr => hs.ok (h ▸ hr), fun hr => hs.error (h ▸ hr)⟩

/-- A reader that succeeds and consumes nothing. -/
theorem still {r : Reader α} {v : α} (hr : r c = .ok v c) : Nests r c where
  ok h := by
    rw [hr] at h
    cases h
    exact ⟨[], rfl, nested_nil⟩
  error h := by
    rw [hr] at h
    cases h

theorem pure {v : α} : Nests (Pure.pure v) c := still rfl

/-- Of a failure nothing is asked, unless it is about an open block. -/
theorem fails {r : Reader α} {e : SyntaxError} {k : Cursor} (hr : r c = .error e k)
    (hfault : e.fault ≠ .unclosedBlock) : Nests r c where
  ok h := by
    rw [hr] at h
    cases h
  error h hopen := by
    rw [hr] at h
    cases h
    exact absurd hopen hfault

theorem failHere {fault : SyntaxFault} (h : fault ≠ .unclosedBlock) :
    Nests (Reader.failHere fault : Reader α) c :=
  fails (failHere_apply fault c) h

/-- A reader that takes the next token, which is no brace. -/
theorem taken {r : Reader α} {v : α} (hr : r c = .ok v c.advance) (h : c.peek.kind.opens = 0) :
    Nests r c where
  ok hok := by
    rw [hr] at hok
    cases hok
    cases hend : c.isAtEnd with
    | false => exact ⟨[c.peek], (Cursor.advance_prepend_peek hend).symm, nested_singleton h⟩
    | true =>
      obtain ⟨ahead, finish, hfinish⟩ := c
      cases List.isEmpty_iff.mp hend
      exact ⟨[], rfl, nested_nil⟩
  error herror := by
    rw [hr] at herror
    cases herror

/-- A sequence, where the second part may use what the first one gave. -/
theorem bind_of_ok {r : Reader α} {f : α → Reader β} (hr : Nests r c)
    (hf : ∀ v k, r c = .ok v k → k.ahead.length ≤ c.ahead.length → Nests (f v) k) :
    Nests (r >>= f) c where
  ok h := by
    obtain ⟨v, k, hv, hw⟩ := bind_eq_ok.mp h
    obtain ⟨front, rfl, hfront⟩ := hr.ok hv
    obtain ⟨back, rfl, hback⟩ := (hf v k hv (by simp)).ok hw
    exact ⟨front ++ back, (Cursor.prepend_append _ _ _).symm, hfront.append hback⟩
  error h hfault := by
    rcases bind_eq_error.mp h with he | ⟨v, k, hv, he⟩
    · exact hr.error he hfault
    · obtain ⟨front, rfl, hfront⟩ := hr.ok hv
      have hrest := (hf v k hv (by simp)).error he hfault
      rw [Cursor.ahead_prepend, netOpened_append, hfront.closed]
      omega

/-- Two nested stretches are nested; and where the second part finds an open block, the first has
left no brace open. -/
theorem bind {r : Reader α} {f : α → Reader β} (hr : Nests r c)
    (hf : ∀ v k, k.ahead.length ≤ c.ahead.length → Nests (f v) k) : Nests (r >>= f) c :=
  bind_of_ok hr fun v k _ => hf v k

/-- Behind a token that begins a construct, fewer tokens are ahead. -/
theorem advance_bind {kind : TokenKind} {f : Token → Reader β} (hc : c.check kind = true)
    (hkind : kind ≠ .endOfInput) (hopens : kind.opens = 0)
    (hf : ∀ t k, k.ahead.length < c.ahead.length → Nests (f t) k) : Nests (advance >>= f) c := by
  have hpeek := Cursor.check_iff.mp hc
  have hback := Cursor.advance_prepend_peek (Cursor.isAtEnd_of_check hkind hc)
  have hfewer : c.advance.ahead.length < c.ahead.length := by
    rw [← hback]
    exact Nat.lt_succ_self _
  have hrest := hf c.peek c.advance hfewer
  refine ⟨fun h => ?_, fun h hfault => ?_⟩
  · obtain ⟨tokens, htokens, hnested⟩ := hrest.ok h
    refine ⟨[c.peek] ++ tokens, ?_, (nested_singleton (by rw [hpeek, hopens])).append hnested⟩
    rw [Cursor.prepend_append, ← htokens, hback]
  · have hpositive := hrest.error h hfault
    rw [← hback, Cursor.ahead_prepend, netOpened_append, netOpened_cons, hpeek, hopens]
    simpa using hpositive

/-- A required token that is no brace opens nothing. -/
theorem expect {kind : TokenKind} {message : String} (hopens : kind.opens = 0) :
    Nests (Reader.expect kind message) c := by
  cases hcheck : c.check kind with
  | false =>
    refine fails (e := ⟨.expected message, c.peek.position⟩) (k := c) ?_ (by simp)
    rw [expect_apply, hcheck]
    rfl
  | true =>
    refine taken (v := c.peek) ?_ (by rw [Cursor.check_iff.mp hcheck, hopens])
    rw [expect_apply, if_pos hcheck]

theorem expectSemicolon {context : String} : Nests (Reader.expectSemicolon context) c := by
  cases hcheck : c.check .semicolon with
  | false =>
    refine fails (e := ⟨.missingSemicolon context, c.peek.position⟩) (k := c) ?_ (by simp)
    rw [expectSemicolon_apply, hcheck]
    rfl
  | true =>
    refine taken (v := ()) ?_ (by rw [Cursor.check_iff.mp hcheck]; rfl)
    rw [expectSemicolon_apply, if_pos hcheck]

/-- An optional token that is no brace opens nothing. -/
theorem accept? {kind : TokenKind} (hopens : kind.opens = 0) : Nests (Reader.accept? kind) c := by
  cases hcheck : c.check kind with
  | false =>
    refine still (v := none) ?_
    rw [accept?_apply, hcheck]
    rfl
  | true =>
    refine taken (v := some c.peek) ?_ (by rw [Cursor.check_iff.mp hcheck, hopens])
    rw [accept?_apply, if_pos hcheck]

theorem numberOf {token : Token} : Nests (Reader.numberOf token) c := by
  cases hread : Number.read? token.text with
  | none =>
    refine fails (e := ⟨.invalidNumber token.text, token.position⟩) (k := c) ?_ (by simp)
    rw [numberOf_apply, hread]
  | some value =>
    refine still (v := value) ?_
    rw [numberOf_apply, hread]

theorem ite {p : Prop} [Decidable p] {r s : Reader α} (hr : Nests r c) (hs : Nests s c) :
    Nests (if p then r else s) c := by
  split
  · exact hr
  · exact hs

/-! ## Expressions -/

/-- No brace stands within a call. -/
theorem callWith {arguments : Reader (List Expression)} (h : ∀ k, Nests arguments k) :
    Nests (Reader.callWith arguments) c := by
  refine bind (expect rfl) fun _ k _ => bind (expect rfl) fun _ k _ => ?_
  refine bind (expect rfl) fun _ k _ => bind (expect rfl) fun _ k _ => ?_
  exact congr (peek_bind _ k) (ite pure (bind (h k) fun _ _ _ => pure))

/-- No brace stands within an expression. -/
theorem expressionWith {arguments : Reader (List Expression)} (h : ∀ k, Nests arguments k) :
    Nests (Reader.expressionWith arguments) c := by
  refine congr (peek_bind _ c) ?_
  split
  · rename_i hkind
    refine bind (taken (advance_apply c) (by rw [hkind]; rfl)) fun _ _ _ => ?_
    exact bind numberOf fun _ _ _ => pure
  · rename_i hkind
    exact bind (taken (advance_apply c) (by rw [hkind]; rfl)) fun _ _ _ => pure
  · rename_i hkind
    exact bind (taken (advance_apply c) (by rw [hkind]; rfl)) fun _ _ _ => pure
  · exact bind (callWith h) fun _ _ _ => pure
  · exact failHere (by simp)

/-- No brace stands among arguments. -/
theorem arguments (bound : Nat) (c : Cursor) : Nests (Reader.arguments bound) c := by
  induction bound generalizing c with
  | zero => exact congr (peek_bind _ c) (failHere (by simp))
  | succ bound ih =>
    refine bind (expressionWith ih) fun _ k _ => bind (accept? rfl) fun _ k _ => ?_
    exact ite (bind (ih k) fun _ _ _ => pure) pure

/-! ## Statements -/

/-- No brace stands within an assignment. -/
theorem assignment : Nests Reader.assignment c := by
  refine bind (expect rfl) fun _ k _ => bind (accept? rfl) fun _ k _ => ite ?_ ?_
  · refine bind (expect rfl) fun _ k _ => bind (expect rfl) fun _ k _ => ?_
    exact bind numberOf fun _ k _ => bind expectSemicolon fun _ _ _ => pure
  · refine bind (accept? rfl) fun _ k _ => ite ?_ (fails (throw_apply _ k) (by simp))
    exact bind (expect rfl) fun _ k _ => bind expectSemicolon fun _ _ _ => pure

/-- No brace stands within a `set`. -/
theorem setFromCall {call : Reader Call} (h : ∀ k, Nests call k) :
    Nests (Reader.setFromCall call) c := by
  refine bind (expect rfl) fun _ k _ => bind (expect rfl) fun _ k _ => ?_
  refine bind (expect rfl) fun _ k _ => congr (check_bind _ _ k) (ite ?_ (failHere (by simp)))
  exact bind (h k) fun _ k _ => bind expectSemicolon fun _ _ _ => pure

end Nests

/-- What is read between braces, where at most so many tokens are ahead: it nests, and it stops at a
closing brace or at the end of the input. -/
structure Fills (n : Nat) (statements : Reader (List Statement)) : Prop where
  nests : ∀ {c : Cursor}, c.ahead.length ≤ n → Nests statements c
  stops : ∀ {c k : Cursor} {v : List Statement}, c.ahead.length ≤ n → statements c = .ok v k →
    k.isAtEnd = true ∨ k.check .rightBrace = true

namespace Nests

variable {n : Nat} {statements : Reader (List Statement)}

/-- A block consumes its two braces together. If the closing one is missing, nothing else is left. -/
theorem blockWith (h : Fills n statements) (hc : c.check .leftBrace = true)
    (hlength : c.ahead.length ≤ n + 1) : Nests (Reader.blockWith statements) c := by
  have hstart := Cursor.check_iff.mp hc
  have hback := Cursor.advance_prepend_peek (Cursor.isAtEnd_of_check (by decide) hc)
  have hinside : c.advance.ahead.length ≤ n := by
    rw [← hback, Cursor.ahead_prepend] at hlength
    exact Nat.le_of_succ_le_succ hlength
  have hopened : netOpened c.ahead = 1 + netOpened c.advance.ahead := by
    rw [← hback, Cursor.ahead_prepend, netOpened_append, netOpened_cons, hstart]
    rfl
  refine ⟨fun hok => ?_, fun herror hfault => ?_⟩
  · rw [Reader.blockWith, Reader.advance_bind] at hok
    obtain ⟨body, k, hbody, hok⟩ := bind_eq_ok.mp hok
    obtain ⟨tokens, htokens, hnested⟩ := (h.nests hinside).ok hbody
    cases hclose : k.check .rightBrace with
    | false =>
      rw [accept?_bind_of_not_check hclose] at hok
      cases hok
    | true =>
      rw [accept?_bind_of_check hclose] at hok
      cases hok
      have hclosed := Cursor.check_iff.mp hclose
      refine ⟨_, ?_, hnested.block hstart hclosed⟩
      rw [← List.singleton_append, Cursor.prepend_append, Cursor.prepend_append,
        Cursor.advance_prepend_peek (Cursor.isAtEnd_of_check (by decide) hclose), ← htokens, hback]
  · rw [Reader.blockWith, Reader.advance_bind] at herror
    rcases bind_eq_error.mp herror with herror | ⟨body, k, hbody, herror⟩
    · have hpositive := (h.nests hinside).error herror hfault
      omega
    · obtain ⟨tokens, htokens, hnested⟩ := (h.nests hinside).ok hbody
      cases hclose : k.check .rightBrace with
      | true =>
        rw [accept?_bind_of_check hclose] at herror
        cases herror
      | false =>
        have hend := (h.stops hinside hbody).resolve_right (by simp [hclose])
        rw [hopened, htokens, Cursor.ahead_prepend, List.isEmpty_iff.mp hend, List.append_nil,
          hnested.closed]
        decide

/-- A missing block is no open one. -/
theorem requiredBlockWith (h : Fills n statements) (keyword : String)
    (hlength : c.ahead.length ≤ n + 1) : Nests (Reader.requiredBlockWith statements keyword) c := by
  refine congr (check_bind _ _ c) ?_
  split
  · rename_i hc
    exact blockWith h hc hlength
  · exact failHere (by simp)

/-- The blocks of a condition are nested one behind the other. -/
theorem condition (h : Fills n statements) {expression : Reader Expression}
    (hexpression : ∀ k, Nests expression k) (hlength : c.ahead.length ≤ n + 1) :
    Nests (Reader.condition expression (Reader.requiredBlockWith statements)) c := by
  refine bind (expect rfl) fun _ k hk => bind (hexpression k) fun _ k hk => ?_
  refine bind (requiredBlockWith h _ (by omega)) fun _ k hk => bind (accept? rfl) fun _ k hk => ?_
  exact ite (bind (requiredBlockWith h _ (by omega)) fun _ _ _ => pure) pure

/-- Whatever the first token is, a statement is nested. -/
theorem statementWith (h : Fills n statements) (bound : Nat) (hlength : c.ahead.length ≤ n + 1) :
    Nests (Reader.statementWith bound statements) c := by
  have hcall (k : Cursor) := callWith (c := k) (arguments bound)
  have hexpression (k : Cursor) := expressionWith (c := k) (arguments bound)
  refine congr (peek_bind _ c) ?_
  split
  · rename_i hkind
    exact bind (blockWith h (Cursor.check_iff.mpr hkind) hlength) fun _ _ _ => pure
  · rename_i hkind
    refine advance_bind (Cursor.check_iff.mpr hkind) (by decide) rfl fun _ k _ => ?_
    exact bind (hexpression k) fun _ k _ => bind expectSemicolon fun _ _ _ => pure
  · exact bind (hcall c) fun _ k _ => bind expectSemicolon fun _ _ _ => pure
  · exact setFromCall hcall
  · exact condition h hexpression hlength
  · refine bind (expect rfl) fun _ k hk => ?_
    refine bind (hexpression k) fun _ k hk => ?_
    exact bind (requiredBlockWith h _ (by omega)) fun _ _ _ => pure
  · exact assignment
  · exact failHere (by simp)

end Nests

/-- A bound that reaches the number of tokens ahead is enough for the inside of a block. -/
theorem fills_statements (bound : Nat) : Fills bound (statements bound) := by
  induction bound with
  | zero =>
    refine ⟨fun _ => .pure, fun hlength hok => ?_⟩
    cases hok
    exact .inl (List.isEmpty_iff_length_eq_zero.mpr (Nat.le_zero.mp hlength))
  | succ bound ih =>
    refine ⟨fun {c} hlength => ?_, fun {c k v} hlength hok => ?_⟩
    · refine .congr (isAtEnd_bind _ c) (.congr (check_bind _ _ c) (.ite .pure ?_))
      refine (Nests.statementWith ih bound hlength).bind_of_ok fun first k hfirst _ => ?_
      have hfewer := length_lt_of_statementWith hfirst
      exact (ih.nests (by omega)).bind fun _ _ _ => .pure
    · rw [statements, isAtEnd_bind, check_bind] at hok
      split at hok
      · rename_i hstop
        cases hok
        exact Bool.or_eq_true_iff.mp hstop
      · obtain ⟨first, c₁, hfirst, hok⟩ := bind_eq_ok.mp hok
        obtain ⟨rest, k', hrest, hok⟩ := bind_eq_ok.mp hok
        cases hok
        have hfewer := length_lt_of_statementWith hfirst
        exact ih.stops (by omega) hrest

/-- A program is nested, and it misses a closing brace only where there are fewer of them than
opening ones. -/
theorem nests_program (c : Cursor) : Nests program c := by
  refine .congr (program_apply c) (((fills_statements _).nests (Nat.le_refl _)).bind fun _ k _ => ?_)
  exact .congr (isAtEnd_bind _ k) (.ite .pure (.congr (peek_bind _ k) (.failHere (by simp))))

end Reader

/-! ## Lists of tokens -/

/-- The tokens of a program nest. -/
theorem nested_of_parse {tokens : List Token} {program : Program} (h : parse tokens = .ok program) :
    Nested (Cursor.ofTokens tokens).ahead := by
  obtain ⟨k, hk⟩ := parse_eq_ok.mp h
  obtain ⟨consumed, hconsumed, hnested⟩ := (Reader.nests_program _).ok hk
  have hend := List.isEmpty_iff.mp (Reader.programWithin_leaves_end hk)
  rwa [hconsumed, Cursor.ahead_prepend, hend, List.append_nil]

/-- A list of tokens in which a block stays open opens more blocks than it closes. -/
theorem netOpened_pos_of_parse {tokens : List Token} {e : SyntaxError}
    (h : parse tokens = .error e) (hfault : e.fault = .unclosedBlock) :
    0 < netOpened (Cursor.ofTokens tokens).ahead := by
  obtain ⟨k, hk⟩ := parse_eq_error.mp h
  exact (Reader.nests_program _).error hk hfault

end Parlance
