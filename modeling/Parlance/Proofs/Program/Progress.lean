import Parlance.Proofs.Program.CorrectPrefix

/-!
# The cursor moves on

Reading never goes back and never passes the end of the input, whichever operations are carried out on a
cursor and in whichever order. `Cursor.StandsAt` gives a cursor its index in the list of tokens it was
made from, and one operation, like any number of them, takes an index to one that is no smaller
(`Cursor.StandsAt.perform`, `Cursor.StandsAt.after`). An operation that only tests the next token stays
where it is when the test fails, and a construct that was read has at least one token.

So every loop over constructs ends. `Reader.Loops` is a loop unrolled, with no bound in it. The readers
of the language are such loops: the inside of a block (`loops_statements`), the arguments of a call
(`loops_arguments`) and the whole program (`loops_program`), as soon as their bound reaches the number of
tokens ahead.
-/

namespace Parlance

open Reader

/-! ## Operations -/

/-- What can be done with a cursor. -/
inductive Operation where
  | advance
  | accept (kind : TokenKind)
  | expect (kind : TokenKind) (message : String)
  | expectSemicolon (context : String)
  | expression
  | call
  | statement

namespace Operation

/-- Carries out an operation and tells whether it found what it was to find. -/
def perform {σ : Type} [TokenSource σ] : Operation → Reading σ Bool
  | advance => do
    let _ ← Reader.advance
    return true
  | accept kind => return (← accept? kind).isSome
  | expect kind message => do
    let _ ← Reader.expect kind message
    return true
  | expectSemicolon context => do
    Reader.expectSemicolon context
    return true
  | expression => do
    let _ ← Reader.expression
    return true
  | call => do
    let _ ← Reader.call
    return true
  | statement => do
    let _ ← Reader.statement
    return true

/-- An operation finds what it is to find. -/
def SucceedsAt (operation : Operation) (c : Cursor) : Prop :=
  ∃ k, operation.perform c = .ok true k

/-- Whether an operation is a test of the next token. -/
def isTest : Operation → Bool
  | accept _ => true
  | expect _ _ => true
  | expectSemicolon _ => true
  | _ => false

/-- Whether an operation reads a construct of the language. -/
def isConstruct : Operation → Bool
  | expression => true
  | call => true
  | statement => true
  | _ => false

end Operation

/-- The cursor behind operations, carried out one after the other whether they succeed or not. -/
def Cursor.after (c : Cursor) (operations : List Operation) : Cursor :=
  operations.foldl (fun c operation => left (operation.perform c)) c

/-! ## The index of a cursor -/

/-- A cursor stands at an index of a list of tokens: with the tokens before the index put back, it is the
cursor before the list. -/
structure Cursor.StandsAt (tokens : List Token) (index : Nat) (c : Cursor) : Prop where
  le_length : index ≤ tokens.length
  ofTokens_eq : ofTokens tokens = c.prepend (tokens.take index)

namespace Cursor.StandsAt

variable {tokens : List Token} {i j : Nat} {c k : Cursor}

/-- The cursor of a list stands at its first token. -/
theorem start (tokens : List Token) : StandsAt tokens 0 (ofTokens tokens) :=
  ⟨Nat.zero_le _, rfl⟩

/-- The index of a cursor and what is ahead of it make up what stands before the end of the input. -/
theorem add_length (h : StandsAt tokens i c) :
    i + c.ahead.length = tokens.findIdx (·.kind == .endOfInput) := by
  have hlength := congrArg (fun d : Cursor => d.ahead.length) h.ofTokens_eq
  simp only [ahead_prepend, List.length_append, List.length_take,
    Nat.min_eq_left h.le_length] at hlength
  rw [← hlength, ← take_findIdx_endOfInput, List.length_take]
  exact Nat.min_eq_left List.findIdx_le_length

/-- No index is behind the first end of the input. -/
theorem le_findIdx (h : StandsAt tokens i c) : i ≤ tokens.findIdx (·.kind == .endOfInput) := by
  have hsum := h.add_length
  omega

/-- The token that a cursor sees is the one at its index, or the end that was made up behind the list. -/
theorem peek_eq (h : StandsAt tokens i c) : c.peek = tokens[i]?.getD (syntheticEnd tokens) := by
  have hpeek := peek_of_prepend h.ofTokens_eq
  rwa [List.length_take, Nat.min_eq_left h.le_length] at hpeek

/-- Where tokens were consumed, the index has grown by their number. -/
theorem prepend {front : List Token} (h : StandsAt tokens i (k.prepend front)) :
    StandsAt tokens (i + front.length) k := by
  have hcursor : ofTokens tokens = k.prepend (tokens.take i ++ front) := by
    rw [prepend_append]
    exact h.ofTokens_eq
  have hlength : (tokens.take i ++ front).length = i + front.length := by
    rw [List.length_append, List.length_take, Nat.min_eq_left h.le_length]
  have htake := (eq_take_of_ofTokens_eq_prepend hcursor).1
  rw [hlength] at htake
  constructor
  · rw [← hlength, htake, List.length_take]
    exact Nat.min_le_right _ _
  · rw [hcursor, htake]

end Cursor.StandsAt

/-! ## What an operation does to the index -/

namespace Operation

variable {c : Cursor} {operation : Operation}

/-- What is made of a value leaves the cursor alone. -/
theorem left_bind_pure {α β : Type} (r : Reader α) (f : α → β) (c : Cursor) :
    left ((r >>= fun v => pure (f v)) c) = left (r c) := by
  rw [bind_apply]
  cases r c <;> rfl

/-- An operation consumes tokens from the front, or none. -/
theorem exists_prepend (operation : Operation) (c : Cursor) :
    ∃ front, c = (left (operation.perform c)).prepend front := by
  cases operation with
  | advance =>
    rw [perform, left_bind_pure]
    exact LooksOneAhead.advance.consumes c
  | accept kind =>
    rw [perform, left_bind_pure]
    exact LooksOneAhead.accept?.consumes c
  | expect kind message =>
    rw [perform, left_bind_pure]
    exact LooksOneAhead.expect.consumes c
  | expectSemicolon context =>
    rw [perform, left_bind_pure]
    exact LooksOneAhead.expectSemicolon.consumes c
  | expression =>
    rw [perform, left_bind_pure]
    exact (LooksOneAhead.expressionWith (.arguments c.ahead.length)).consumes c
  | call =>
    rw [perform, left_bind_pure]
    exact (LooksOneAhead.callWith (.arguments c.ahead.length)).consumes c
  | statement =>
    rw [perform, left_bind_pure]
    exact (LooksOneAhead.statementWith (.statements c.ahead.length) c.ahead.length).consumes c

/-- A test that fails consumes nothing. -/
theorem left_of_isTest (htest : operation.isTest = true) (hfails : ¬ operation.SucceedsAt c) :
    left (operation.perform c) = c := by
  cases operation with
  | accept kind =>
    cases hkind : c.check kind with
    | false => rw [perform, left_bind_pure, accept?_apply, hkind]; rfl
    | true => exact absurd ⟨c.advance, accept?_bind_of_check hkind⟩ hfails
  | expect kind message =>
    cases hkind : c.check kind with
    | false => rw [perform, left_bind_pure, expect_apply, hkind]; rfl
    | true =>
      have hfound : Reader.expect kind message c = .ok c.peek c.advance := by
        rw [expect_apply, if_pos hkind]
      exact absurd ⟨c.advance, bind_of_ok hfound⟩ hfails
  | expectSemicolon context =>
    cases hkind : c.check .semicolon with
    | false => rw [perform, left_bind_pure, expectSemicolon_apply, hkind]; rfl
    | true =>
      have hfound : Reader.expectSemicolon context c = .ok () c.advance := by
        rw [expectSemicolon_apply, if_pos hkind]
      exact absurd ⟨c.advance, bind_of_ok hfound⟩ hfails
  | _ => cases htest

/-- A construct that was read has at least one token. -/
theorem length_lt_of_isConstruct (hconstruct : operation.isConstruct = true)
    (hsucceeds : operation.SucceedsAt c) :
    (left (operation.perform c)).ahead.length < c.ahead.length := by
  obtain ⟨k, hk⟩ := hsucceeds
  cases operation with
  | expression =>
    obtain ⟨v, d, hread, hd⟩ := bind_eq_ok.mp hk
    rw [perform, left_bind_pure, hread]
    exact length_lt_of_expressionWith hread
  | call =>
    obtain ⟨v, d, hread, hd⟩ := bind_eq_ok.mp hk
    rw [perform, left_bind_pure, hread]
    exact length_lt_of_callWith hread
  | statement =>
    obtain ⟨v, d, hread, hd⟩ := bind_eq_ok.mp hk
    rw [perform, left_bind_pure, hread]
    exact length_lt_of_statementWith hread
  | _ => cases hconstruct

end Operation

namespace Cursor.StandsAt

variable {tokens : List Token} {i : Nat} {c : Cursor}

/-- One operation: the index does not go back, a failed test leaves it, and a construct takes it on. -/
theorem perform (h : StandsAt tokens i c) (operation : Operation) :
    ∃ j, StandsAt tokens j (left (operation.perform c)) ∧ i ≤ j ∧
      (operation.isTest = true → ¬ operation.SucceedsAt c → j = i) ∧
        (operation.isConstruct = true → operation.SucceedsAt c → i < j) := by
  obtain ⟨front, hfront⟩ := operation.exists_prepend c
  have hlength : c.ahead.length = front.length + (left (operation.perform c)).ahead.length := by
    conv_lhs => rw [hfront, ahead_prepend, List.length_append]
  rw [hfront] at h
  refine ⟨i + front.length, h.prepend, Nat.le_add_right _ _, fun htest hfails => ?_,
    fun hconstruct hsucceeds => ?_⟩
  · rw [Operation.left_of_isTest htest hfails] at hlength
    omega
  · have hfewer := Operation.length_lt_of_isConstruct hconstruct hsucceeds
    omega

/-- Any number of operations, failing ones included. -/
theorem after (operations : List Operation) (h : StandsAt tokens i c) :
    ∃ j, StandsAt tokens j (c.after operations) ∧ i ≤ j := by
  induction operations generalizing i c with
  | nil => exact ⟨i, h, Nat.le_refl i⟩
  | cons operation operations ih =>
    obtain ⟨j, hj, hle, -, -⟩ := h.perform operation
    obtain ⟨j', hj', hle'⟩ := ih hj
    exact ⟨j', hj', Nat.le_trans hle hle'⟩

end Cursor.StandsAt

/-! ## Loops -/

namespace Reader

variable {α : Type}

/-- A value before the values of an outcome. -/
def before (v : α) : Outcome (List α) → Outcome (List α)
  | .ok vs k => .ok (v :: vs) k
  | .error e k => .error e k

/-- A loop, unrolled: it ends where its test fails, it breaks off where its body does, and behind its
body it goes on. -/
inductive Loops (goesOn : Cursor → Bool) (body : Reader α) : Cursor → Outcome (List α) → Prop
  | ends {c : Cursor} : goesOn c = false → Loops goesOn body c (.ok [] c)
  | breaks {c k : Cursor} {e : SyntaxError} : goesOn c = true → body c = .error e k →
    Loops goesOn body c (.error e k)
  | next {c k : Cursor} {v : α} {outcome : Outcome (List α)} : goesOn c = true → body c = .ok v k →
    Loops goesOn body k outcome → Loops goesOn body c (before v outcome)

theorem bind_cons_eq_before {v : α} (r : Reader (List α)) (c : Cursor) :
    (r >>= fun vs => pure (v :: vs)) c = before v (r c) := by
  rw [bind_apply]
  cases r c <;> rfl

end Reader

/-- Whether the inside of a block goes on. -/
def Cursor.isInBlock (c : Cursor) : Bool := !c.isAtEnd && !c.check .rightBrace

namespace Reader

variable {bound : Nat} {c : Cursor}

/-- A bound that reaches the number of tokens ahead is as good as this number. -/
theorem expressionWith_eq_expression (h : c.ahead.length ≤ bound + 1) :
    expressionWith (arguments bound) c = expression c := by
  have hagree : AgreeWithin (c.ahead.length - 1) (arguments bound) (arguments c.ahead.length) :=
    .arguments (by omega) (by omega)
  exact hagree.expressionWith (.arguments bound) c (by omega)

/-- For a statement, too, a bound that reaches the number of tokens ahead is as good as this number. -/
theorem statementWith_eq_statement (h : c.ahead.length ≤ bound + 1) :
    statementWith bound (statements bound) c = statement c := by
  have hagree : AgreeWithin (c.ahead.length - 1) (statements bound) (statements c.ahead.length) :=
    .statements (by omega) (by omega)
  show _ = statementWith c.ahead.length (statements c.ahead.length) c
  exact hagree.statementWith (.statements bound) (by omega) (by omega) c (by omega)

/-- The inside of a block is a loop over its statements. -/
theorem loops_statements (h : c.ahead.length ≤ bound) :
    Loops Cursor.isInBlock statement c (statements bound c) := by
  induction bound generalizing c with
  | zero =>
    have hend : c.isAtEnd = true := List.isEmpty_iff_length_eq_zero.mpr (Nat.le_zero.mp h)
    exact .ends (by rw [Cursor.isInBlock, hend]; rfl)
  | succ bound ih =>
    rw [statements, isAtEnd_bind, check_bind]
    split
    · rename_i hover
      refine .ends ?_
      rw [Cursor.isInBlock, ← Bool.not_or, hover]
      rfl
    · rename_i hover
      have hgoes : c.isInBlock = true := by
        rw [Cursor.isInBlock, ← Bool.not_or, Bool.eq_false_iff.mpr hover]
        rfl
      rw [bind_apply, statementWith_eq_statement h]
      cases hread : statement c with
      | error e k => exact .breaks hgoes hread
      | ok first k =>
        have hfewer : k.ahead.length < c.ahead.length := length_lt_of_statementWith hread
        dsimp only
        rw [bind_cons_eq_before]
        exact .next hgoes hread (ih (by omega))

/-- The arguments of a call are an expression, and then a loop that reads another behind each comma. -/
theorem loops_arguments (h : c.ahead.length ≤ bound) :
    match expression c with
    | .error e k => arguments bound c = .error e k
    | .ok first k => ∃ outcome,
      Loops (·.check .comma) (advance >>= fun _ => expression) k outcome ∧
        arguments bound c = before first outcome := by
  induction bound generalizing c with
  | zero =>
    have hkind : c.peek.kind = .endOfInput :=
      Cursor.peek_kind_of_isAtEnd (List.isEmpty_iff_length_eq_zero.mpr (Nat.le_zero.mp h))
    have hread : expression c =
        .error ⟨.unexpectedInExpression c.peek.description, c.peek.position⟩ c := by
      show expressionWith (arguments c.ahead.length) c = _
      rw [expressionWith_apply, hkind]
    rw [hread]
    rfl
  | succ bound ih =>
    rw [arguments, bind_apply, expressionWith_eq_expression h]
    cases hread : expression c with
    | error e k => rfl
    | ok first k =>
      have hfewer : k.ahead.length < c.ahead.length := length_lt_of_expressionWith hread
      dsimp only
      cases hcomma : k.check .comma with
      | false => exact ⟨.ok [] k, .ends hcomma, accept?_bind_of_not_check hcomma⟩
      | true =>
        rw [accept?_bind_of_check hcomma]
        have hbehind : k.advance.ahead.length ≤ bound := by
          rw [Cursor.advance, List.length_tail]
          omega
        have hothers := ih hbehind
        cases hsecond : expression k.advance with
        | error e d =>
          rw [hsecond] at hothers
          exact ⟨.error e d, .breaks hcomma hsecond, bind_eq_error.mpr (.inl hothers)⟩
        | ok second d =>
          rw [hsecond] at hothers
          obtain ⟨outcome, hloops, harguments⟩ := hothers
          refine ⟨before second outcome, .next hcomma hsecond hloops, ?_⟩
          rw [← harguments]
          exact bind_cons_eq_before (arguments bound) k.advance

/-! ## The loop of a program -/

/-- What is left to say of statements that were read: if the input goes on behind them, no statement
begins there. -/
def closed : Outcome Program → Outcome Program
  | .ok body k =>
    if k.isAtEnd then .ok body k
    else .error ⟨.unexpectedToken k.peek.description, k.peek.position⟩ k
  | .error e k => .error e k

/-- Whether a program is closed is decided behind its last statement. -/
theorem closed_before (first : Statement) (outcome : Outcome Program) :
    closed (before first outcome) = before first (closed outcome) := by
  cases outcome with
  | error e k => rfl
  | ok body k =>
    dsimp only [before, closed]
    cases k.isAtEnd <;> rfl

/-- A program is its statements and the demand that nothing is left. -/
theorem program_eq_closed (c : Cursor) : program c = closed (statements c.ahead.length c) := by
  show (statements c.ahead.length >>= _) c = _
  rw [bind_apply]
  cases statements c.ahead.length c with
  | error e k => rfl
  | ok body k =>
    dsimp only [closed]
    rw [isAtEnd_bind]
    cases k.isAtEnd <;> rfl

/-- A closing brace begins no statement. -/
theorem statement_of_rightBrace (h : c.check .rightBrace = true) :
    statement c = .error ⟨.unexpectedToken c.peek.description, c.peek.position⟩ c := by
  show statementWith c.ahead.length (statements c.ahead.length) c = _
  rw [statementWith, peek_bind, Cursor.check_iff.mp h]
  rfl

/-- A closing brace that closes nothing begins no statement, so a program is a loop up to the end. -/
theorem Loops.closed {outcome : Outcome Program} (h : Loops Cursor.isInBlock statement c outcome) :
    Loops (!·.isAtEnd) statement c (closed outcome) := by
  induction h with
  | @ends c hover =>
    rw [Reader.closed]
    cases hend : c.isAtEnd with
    | true => exact .ends (by rw [hend]; rfl)
    | false =>
      have hbrace : c.check .rightBrace = true := by simpa [Cursor.isInBlock, hend] using hover
      exact .breaks (by rw [hend]; rfl) (statement_of_rightBrace hbrace)
  | breaks hgoes hread => exact .breaks (Bool.and_eq_true_iff.mp hgoes).1 hread
  | next hgoes hread _ ih =>
    rw [closed_before]
    exact .next (Bool.and_eq_true_iff.mp hgoes).1 hread ih

/-- A whole program is a loop over statements up to the end of the input. -/
theorem loops_program (c : Cursor) : Loops (!·.isAtEnd) statement c (program c) := by
  rw [program_eq_closed]
  exact (loops_statements (Nat.le_refl _)).closed

/-- What an outcome says, whatever cursor it leaves. -/
def result {σ α : Type} : EStateM.Result SyntaxError σ α → Except SyntaxError α
  | .ok v _ => .ok v
  | .error e _ => .error e

/-- The program of a list of tokens is what the reader at its cursor gives. -/
theorem parse_eq_result (tokens : List Token) : parse tokens = result (program (Cursor.ofTokens tokens)) := by
  unfold parse
  cases program (Cursor.ofTokens tokens) <;> rfl

end Reader

/-! ## Behind the end of the input -/

/-- What stands behind the first end of the input is not seen. -/
theorem Cursor.ofTokens_congr {tokens others : List Token} {n : Nat}
    (hn : n = tokens.findIdx (·.kind == .endOfInput)) (h : n < tokens.length)
    (hsame : others.take (n + 1) = tokens.take (n + 1)) : ofTokens others = ofTokens tokens := by
  have hlast : tokens[n].kind = .endOfInput := by
    subst hn
    simpa using List.findIdx_getElem (w := h)
  have hfront : ∀ token ∈ tokens.take n, token.kind ≠ .endOfInput := by
    intro token htoken
    rw [hn, take_findIdx_endOfInput] at htoken
    simpa using List.mem_takeWhile_imp htoken
  -- Both lists are the tokens before the end, the end, and something behind it.
  have hofTokens : ∀ list : List Token, list.take (n + 1) = tokens.take (n + 1) →
      ofTokens list = ⟨tokens.take n, tokens[n], hlast⟩ := by
    intro list hlist
    have hsplit : list = tokens.take n ++ tokens[n] :: list.drop (n + 1) := by
      conv_lhs => rw [← List.take_append_drop (n + 1) list, hlist, List.take_succ_eq_append_getElem h]
      rw [List.append_assoc]
      rfl
    rw [hsplit, ofTokens_append hfront (List.cons_ne_nil _ _)]
    simp [ofTokens, prepend, hlast]
  rw [hofTokens others hsame, hofTokens tokens rfl]

/-- **The cursor is bounded, goes only forward, and ends every loop.** Let any operations be carried out
one after the other on the cursor of a list of tokens, failing ones included, and then one more. The
cursor stands at an index of the list before and after it, and sees the token there. The index never
decreases and never exceeds the index of the first end of the input, or the number of tokens if there is
none. A test that fails leaves the index, and a construct that is read takes it on.

So the loops end, unrolled and without a bound: the one over the statements of a block, the one over
the arguments of a call, and the one over the statements of a program, on every list of tokens. And
what stands behind the first end of the input makes no difference to the program. -/
theorem cursor_bounded_and_monotone (tokens : List Token) :
    let n := tokens.findIdx (·.kind == .endOfInput)
    (∀ (operations : List Operation) (operation : Operation),
      let c := (Cursor.ofTokens tokens).after operations
      ∃ i j, c.StandsAt tokens i ∧ (left (operation.perform c)).StandsAt tokens j ∧
        c.peek = tokens[i]?.getD (Cursor.syntheticEnd tokens) ∧ i ≤ j ∧ j ≤ n ∧
        (operation.isTest = true → ¬ operation.SucceedsAt c → j = i) ∧
        (operation.isConstruct = true → operation.SucceedsAt c → i < j)) ∧
    (∀ (c : Cursor) (bound : Nat), c.ahead.length ≤ bound →
      Loops Cursor.isInBlock statement c (statements bound c) ∧
      match expression c with
      | .error e k => arguments bound c = .error e k
      | .ok first k => ∃ outcome,
        Loops (·.check .comma) (advance >>= fun _ => expression) k outcome ∧
          arguments bound c = before first outcome) ∧
    (∃ outcome, Loops (!·.isAtEnd) statement (Cursor.ofTokens tokens) outcome ∧
      parse tokens = result outcome) ∧
    (n < tokens.length → ∀ others : List Token, others.take (n + 1) = tokens.take (n + 1) →
      parse others = parse tokens) := by
  intro n
  refine ⟨fun operations operation => ?_, fun c bound h => ⟨loops_statements h, loops_arguments h⟩,
    ⟨_, loops_program _, parse_eq_result tokens⟩, fun h others hsame => ?_⟩
  · obtain ⟨i, hi, -⟩ := (Cursor.StandsAt.start tokens).after operations
    obtain ⟨j, hj, hle, htest, hconstruct⟩ := hi.perform operation
    exact ⟨i, j, hi, hj, hi.peek_eq, hle, hj.le_findIdx, htest, hconstruct⟩
  · rw [parse_eq_result, parse_eq_result, Cursor.ofTokens_congr rfl h hsame]

/-- The end of the input stands in the middle of the list. Two tokens are read, and the semicolon behind
the end is neither found nor seen. -/
theorem cursor_stays_before_end :
    let tokens : List Token :=
      [⟨.sayWord, "say", ⟨1, 1⟩⟩, ⟨.text, "a", ⟨1, 5⟩⟩, ⟨.endOfInput, "", ⟨1, 8⟩⟩,
       ⟨.semicolon, ";", ⟨2, 1⟩⟩]
    let c := (Cursor.ofTokens tokens).after [.advance]
    let k := (Cursor.ofTokens tokens).after [.advance, .expression]
    c.StandsAt tokens 1 ∧ k.StandsAt tokens 2 ∧
      (left ((Operation.expectSemicolon "say statement").perform k)).StandsAt tokens 2 ∧
        parse (tokens.take 3) = parse tokens := by
  intro tokens c k
  obtain ⟨hoperations, -, -, hbehind⟩ := cursor_bounded_and_monotone tokens
  obtain ⟨i, j, hi, hj, -, -, hj₂, -, hconstruct⟩ := hoperations [.advance] .expression
  obtain ⟨i', j', hi', hj', -, -, -, htest, -⟩ :=
    hoperations [.advance, .expression] (.expectSemicolon "say statement")
  have hone : i = 1 := Nat.succ.inj hi.add_length
  have htwo : j = 2 := by
    have hlt : i < j := hconstruct rfl ⟨k, rfl⟩
    have hle : j ≤ 2 := hj₂
    omega
  have hfails : ¬ (Operation.expectSemicolon "say statement").SucceedsAt k := by
    rintro ⟨d, hd⟩
    cases hd
  have htwo' : i' = 2 := hi'.add_length
  have hstays : j' = 2 := (htest rfl hfails).trans htwo'
  exact ⟨hone ▸ hi, htwo ▸ hj, hstays ▸ hj', hbehind (by decide) _ rfl⟩

end Parlance
