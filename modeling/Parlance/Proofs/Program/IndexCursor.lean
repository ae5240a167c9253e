import Parlance.Proofs.Program.Progress

/-!
# A cursor that is an index

An `IndexCursor` keeps the whole list of tokens and counts the ones it consumed, and its `advance` looks
before it counts. `IndexCursor.view` cuts the list off where the input ends, as the `Cursor` at the same
place has it. A reader does to an index what it does to the view of it (`Simulates`), and the only thing
it does to an index is to advance it, some number of times (`IndexCursor.Advances`). Both are kept by
sequences, so each reader has them by the shape of its definition.

That an index stays in bounds is a law of `advance` and its test: what is consumed and what the view has
ahead make up the same number before and after it (`Advances.add_length`). From there on, what holds of
cursors holds of indices: `index_bounded_and_monotone` for operations in any order, and
`result_program_ofTokens` for a whole program.

The number of tokens that an index has ahead counts those behind the end of the input too. It is only a
bound, and a bound that is larger than needed makes no difference.
-/

namespace Parlance

open Reader

/-! ## A list that is cut off where the input ends -/

namespace Cursor

/-- The cursor before a list of tokens, given what ends the input of a list that has no end. -/
def cut (tokens : List Token) (finish : Token) (hfinish : finish.kind = .endOfInput) : Cursor where
  ahead := tokens.takeWhile (·.kind != .endOfInput)
  finish := (tokens.find? (·.kind == .endOfInput)).getD finish
  finish_kind := by
    cases found : tokens.find? (·.kind == .endOfInput) with
    | none => exact hfinish
    | some token => simpa using List.find?_some found

variable {finish : Token} (hfinish : finish.kind = .endOfInput)

theorem cut_nil : cut [] finish hfinish = ⟨[], finish, hfinish⟩ := rfl

/-- Nothing behind the end of the input is seen. -/
theorem cut_cons_of_end {token : Token} (h : token.kind = .endOfInput) (rest : List Token) :
    cut (token :: rest) finish hfinish = ⟨[], token, h⟩ := by
  simp [cut, h]

/-- A token before the end of the input is ahead of the cut list behind it. -/
theorem cut_cons {token : Token} (h : token.kind ≠ .endOfInput) (rest : List Token) :
    cut (token :: rest) finish hfinish = (cut rest finish hfinish).prepend [token] := by
  simp [cut, prepend, h]

end Cursor

namespace IndexCursor

/-- The cursor at the place of an index. -/
def view (c : IndexCursor) : Cursor := .cut (c.tokens.drop c.current) c.finish c.finish_kind

/-- The index before a list stands where the cursor of the list does. -/
theorem view_ofTokens (tokens : List Token) : (ofTokens tokens).view = Cursor.ofTokens tokens := rfl

theorem peek_of_getElem? {c : IndexCursor} {token : Token} (h : c.tokens[c.current]? = some token) :
    c.peek = token := by
  rw [peek, h]
  rfl

/-- The token at the index is the first that was not consumed. -/
theorem drop_current {c : IndexCursor} {token : Token} (h : c.tokens[c.current]? = some token) :
    c.tokens.drop c.current = token :: c.tokens.drop (c.current + 1) := by
  obtain ⟨hlt, hget⟩ := List.getElem?_eq_some_iff.mp h
  rw [List.drop_eq_getElem_cons hlt, hget]

/-- At the end of the input nothing is ahead, whatever stands behind it in the list. -/
theorem view_of_isAtEnd {c : IndexCursor} (h : c.isAtEnd = true) :
    c.view = ⟨[], c.peek, beq_iff_eq.mp h⟩ := by
  cases htoken : c.tokens[c.current]? with
  | none =>
    have hdrop : c.tokens.drop c.current = [] :=
      List.drop_eq_nil_of_le (List.getElem?_eq_none_iff.mp htoken)
    simp [view, hdrop, Cursor.cut_nil, peek, htoken]
  | some token =>
    have hpeek := peek_of_getElem? htoken
    have hkind : token.kind = .endOfInput := by simpa [isAtEnd, hpeek] using h
    simp [view, drop_current htoken, Cursor.cut_cons_of_end _ hkind, hpeek]

/-- Before the end of the input, the view has the next token and then what the index has ahead behind
it. -/
theorem view_of_not_isAtEnd {c : IndexCursor} (h : c.isAtEnd = false) :
    c.view = c.advance.view.prepend [c.peek] := by
  cases htoken : c.tokens[c.current]? with
  | none => simp [isAtEnd, peek, htoken, c.finish_kind] at h
  | some token =>
    have hpeek := peek_of_getElem? htoken
    have hkind : token.kind ≠ .endOfInput := by simpa [isAtEnd, hpeek] using h
    simp [view, drop_current htoken, Cursor.cut_cons _ hkind, hpeek, advance, h]

/-- The view shows the token at the index. -/
theorem peek_view (c : IndexCursor) : c.view.peek = c.peek := by
  cases h : c.isAtEnd with
  | true => rw [view_of_isAtEnd h]; rfl
  | false => rw [view_of_not_isAtEnd h, Cursor.peek_prepend_cons]

/-- The view is empty where the index sees the end of the input. -/
theorem isAtEnd_view (c : IndexCursor) : c.view.isAtEnd = c.isAtEnd := by
  cases h : c.isAtEnd with
  | true => rw [view_of_isAtEnd h]; rfl
  | false => rw [view_of_not_isAtEnd h, Cursor.isAtEnd_prepend_cons]

/-- The guard of an index does what the missing tail of a cut list does. -/
theorem advance_view (c : IndexCursor) : c.view.advance = c.advance.view := by
  cases h : c.isAtEnd with
  | true =>
    have hstays : c.advance = c := by simp [advance, h]
    rw [hstays, view_of_isAtEnd h]
    rfl
  | false => rw [view_of_not_isAtEnd h, Cursor.advance_prepend_cons, Cursor.prepend_nil]

/-- The list has at least the tokens that the view has ahead. -/
theorem length_view_le (c : IndexCursor) : c.view.ahead.length ≤ c.tokens.length - c.current := by
  have hprefix := List.takeWhile_prefix (fun token : Token => token.kind != .endOfInput)
    (l := c.tokens.drop c.current)
  simpa [view, Cursor.cut] using hprefix.length_le

/-! ## An index that is advanced -/

/-- The second index is the first one, advanced some number of times. -/
inductive Advances : IndexCursor → IndexCursor → Prop
  | stays (c : IndexCursor) : Advances c c
  | next {c k : IndexCursor} : Advances c.advance k → Advances c k

namespace Advances

variable {c d k : IndexCursor}

/-- Advancing can be taken up again. -/
theorem trans (h : Advances c d) (h' : Advances d k) : Advances c k := by
  induction h with
  | stays => exact h'
  | next _ ih => exact .next (ih h')

/-- No token is ever changed. -/
theorem tokens_eq (h : Advances c k) : k.tokens = c.tokens := by
  induction h with
  | stays => rfl
  | @next c k _ ih =>
    rw [ih, advance]
    split <;> rfl

theorem finish_eq (h : Advances c k) : k.finish = c.finish := by
  induction h with
  | stays => rfl
  | @next c k _ ih =>
    rw [ih, advance]
    split <;> rfl

/-- What is consumed and what is ahead make up the same number all the time. -/
theorem add_length (h : Advances c k) :
    k.current + k.view.ahead.length = c.current + c.view.ahead.length := by
  induction h with
  | stays => rfl
  | @next c k _ ih =>
    rw [ih]
    cases hend : c.isAtEnd with
    | true => simp [advance, hend]
    | false =>
      have hcurrent : c.advance.current = c.current + 1 := by simp [advance, hend]
      rw [view_of_not_isAtEnd hend, hcurrent, Cursor.ahead_prepend, List.length_append,
        List.length_singleton]
      omega

/-- An index never goes back. -/
theorem current_le (h : Advances c k) : c.current ≤ k.current := by
  induction h with
  | stays => exact Nat.le_refl _
  | @next c k _ ih =>
    refine Nat.le_trans ?_ ih
    rw [advance]
    split
    · exact Nat.le_refl _
    · exact Nat.le_succ _

/-- An index that did not move is the same. -/
theorem eq_of_current_eq (h : Advances c k) (hcurrent : k.current = c.current) : k = c := by
  ext1
  · exact h.tokens_eq
  · exact hcurrent
  · exact h.finish_eq

end Advances

/-- Whatever was done to the index before a list, what is consumed and what is ahead are the tokens before
the end of the input. -/
theorem Advances.add_length_ofTokens {tokens : List Token} {k : IndexCursor}
    (h : Advances (ofTokens tokens) k) :
    k.current + k.view.ahead.length = (Cursor.ofTokens tokens).ahead.length := by
  rw [h.add_length, view_ofTokens]
  exact Nat.zero_add _

end IndexCursor

/-! ## Readers -/

namespace Reader

variable {α β : Type}

/-- An outcome on an index, seen as one on the cursor at its place. -/
def viewed : EStateM.Result SyntaxError IndexCursor α → Outcome α
  | .ok v k => .ok v k.view
  | .error e k => .error e k.view

/-- What an outcome leaves is viewed with it. -/
theorem left_viewed (outcome : EStateM.Result SyntaxError IndexCursor α) :
    left (viewed outcome) = (left outcome).view := by
  cases outcome <;> rfl

theorem result_viewed (outcome : EStateM.Result SyntaxError IndexCursor α) :
    result (viewed outcome) = result outcome := by
  cases outcome <;> rfl

/-- The first reader does to an index what the second one does to the cursor at its place, and it does
so by advancing the index. -/
structure Simulates (r : Reading IndexCursor α) (s : Reader α) : Prop where
  outcome : ∀ c : IndexCursor, viewed (r c) = s c.view
  advances : ∀ c : IndexCursor, c.Advances (left (r c))

namespace Simulates

theorem pure {v : α} : Simulates (Pure.pure v) (Pure.pure v) :=
  ⟨fun _ => rfl, fun c => .stays c⟩

theorem throw {e : SyntaxError} : Simulates (throw e : Reading IndexCursor α) (throw e) :=
  ⟨fun _ => rfl, fun c => .stays c⟩

/-- The next token is looked at and the index left. -/
theorem peek : Simulates Reader.peek Reader.peek where
  outcome c := by rw [peek_apply, IndexCursor.peek_view]; rfl
  advances c := .stays c

theorem check {kind : TokenKind} : Simulates (Reader.check kind) (Reader.check kind) where
  outcome c := by rw [check_apply, Cursor.check, IndexCursor.peek_view]; rfl
  advances c := .stays c

theorem isAtEnd : Simulates Reader.isAtEnd Reader.isAtEnd where
  outcome c := by rw [isAtEnd_apply, IndexCursor.isAtEnd_view]; rfl
  advances c := .stays c

/-- An index is advanced where a token is consumed. -/
theorem advance : Simulates Reader.advance Reader.advance where
  outcome c := by rw [advance_apply, IndexCursor.peek_view, IndexCursor.advance_view]; rfl
  advances c := .next (.stays _)

/-- The second part of a sequence begins at an index and at the cursor at its place. -/
theorem bind {r : Reading IndexCursor α} {s : Reader α} {f : α → Reading IndexCursor β}
    {g : α → Reader β} (hr : Simulates r s) (hf : ∀ v, Simulates (f v) (g v)) :
    Simulates (r >>= f) (s >>= g) where
  outcome c := by
    rw [bind_apply, bind_apply, ← hr.outcome c]
    cases r c with
    | ok v k => exact (hf v).outcome k
    | error e k => rfl
  advances c := by
    have hfirst := hr.advances c
    rw [bind_apply]
    cases hrun : r c with
    | ok v k =>
      rw [hrun] at hfirst
      exact hfirst.trans ((hf v).advances k)
    | error e k =>
      rw [hrun] at hfirst
      exact hfirst

theorem ite {p : Prop} [Decidable p] {r r' : Reading IndexCursor α} {s s' : Reader α}
    (hr : Simulates r s) (hr' : Simulates r' s') :
    Simulates (if p then r else r') (if p then s else s') := by
  split
  · exact hr
  · exact hr'

/-- A failure at the next token has the same place for both. -/
theorem failHere {fault : SyntaxFault} :
    Simulates (Reader.failHere fault : Reading IndexCursor α) (Reader.failHere fault) :=
  peek.bind fun _ => throw

theorem numberOf {token : Token} : Simulates (Reader.numberOf token) (Reader.numberOf token) := by
  unfold Reader.numberOf
  cases Number.read? token.text with
  | some value => exact pure
  | none => exact throw

/-- An optional token is one for both or for neither. -/
theorem accept? {kind : TokenKind} : Simulates (Reader.accept? kind) (Reader.accept? kind) :=
  check.bind fun _ => .ite (advance.bind fun _ => pure) pure

/-- A required token is found by both, or its absence has one place. -/
theorem expect {kind : TokenKind} {message : String} :
    Simulates (Reader.expect kind message) (Reader.expect kind message) :=
  check.bind fun _ => .ite advance failHere

theorem expectSemicolon {context : String} :
    Simulates (Reader.expectSemicolon context) (Reader.expectSemicolon context) :=
  check.bind fun _ => .ite (advance.bind fun _ => pure) failHere

/-! ### The readers of the language -/

/-- A call is read alike if its arguments are. -/
theorem callWith {arguments : Reading IndexCursor (List Expression)}
    {others : Reader (List Expression)} (h : Simulates arguments others) :
    Simulates (Reader.callWith arguments) (Reader.callWith others) :=
  expect.bind fun _ => expect.bind fun _ => expect.bind fun _ => expect.bind fun _ =>
    peek.bind fun _ => .ite pure (h.bind fun _ => pure)

/-- The next token decides the expression for both. -/
theorem expressionWith {arguments : Reading IndexCursor (List Expression)}
    {others : Reader (List Expression)} (h : Simulates arguments others) :
    Simulates (Reader.expressionWith arguments) (Reader.expressionWith others) := by
  refine peek.bind ?_
  intro next
  split
  · exact advance.bind fun _ => numberOf.bind fun _ => pure
  · exact advance.bind fun _ => pure
  · exact advance.bind fun _ => pure
  · exact (callWith h).bind fun _ => pure
  · exact failHere

/-- Within one bound, arguments are read alike; by induction on the bound. -/
theorem arguments : ∀ bound : Nat, Simulates (Reader.arguments bound) (Reader.arguments bound)
  | 0 => peek.bind fun _ => failHere
  | bound + 1 => (expressionWith (arguments bound)).bind fun _ => accept?.bind fun _ =>
    .ite ((arguments bound).bind fun _ => pure) pure

/-- A block is read alike if its inside is. -/
theorem blockWith {statements : Reading IndexCursor (List Statement)}
    {others : Reader (List Statement)} (h : Simulates statements others) :
    Simulates (Reader.blockWith statements) (Reader.blockWith others) :=
  advance.bind fun _ => h.bind fun _ => accept?.bind fun _ => .ite pure failHere

theorem requiredBlockWith {statements : Reading IndexCursor (List Statement)}
    {others : Reader (List Statement)} (h : Simulates statements others) (keyword : String) :
    Simulates (Reader.requiredBlockWith statements keyword)
      (Reader.requiredBlockWith others keyword) :=
  check.bind fun _ => .ite (blockWith h) failHere

/-- What follows a name is read alike. -/
theorem assignment : Simulates Reader.assignment Reader.assignment := by
  refine expect.bind fun _ => accept?.bind fun _ => .ite ?_ (accept?.bind fun _ => .ite ?_ throw)
  · exact expect.bind fun _ => expect.bind fun _ => numberOf.bind fun _ =>
      expectSemicolon.bind fun _ => pure
  · exact expect.bind fun _ => expectSemicolon.bind fun _ => pure

theorem setFromCall {call : Reading IndexCursor Call} {other : Reader Call}
    (h : Simulates call other) : Simulates (Reader.setFromCall call) (Reader.setFromCall other) :=
  expect.bind fun _ => expect.bind fun _ => expect.bind fun _ => check.bind fun _ =>
    .ite (h.bind fun _ => expectSemicolon.bind fun _ => pure) failHere

/-- A condition is read alike if its parts are. -/
theorem condition {expression : Reading IndexCursor Expression} {other : Reader Expression}
    {block : String → Reading IndexCursor Block} {otherBlock : String → Reader Block}
    (hexpression : Simulates expression other)
    (hblock : ∀ keyword, Simulates (block keyword) (otherBlock keyword)) :
    Simulates (Reader.condition expression block) (Reader.condition other otherBlock) :=
  expect.bind fun _ => hexpression.bind fun _ => (hblock _).bind fun _ => accept?.bind fun _ =>
    .ite ((hblock _).bind fun _ => pure) pure

/-- The next token decides the statement for both. -/
theorem statementWith {statements : Reading IndexCursor (List Statement)}
    {others : Reader (List Statement)} (h : Simulates statements others) (bound : Nat) :
    Simulates (Reader.statementWith bound statements) (Reader.statementWith bound others) := by
  have hcall := callWith (arguments bound)
  have hexpression := expressionWith (arguments bound)
  refine peek.bind ?_
  intro next
  split
  · exact (blockWith h).bind fun _ => pure
  · exact advance.bind fun _ => hexpression.bind fun _ => expectSemicolon.bind fun _ => pure
  · exact hcall.bind fun _ => expectSemicolon.bind fun _ => pure
  · exact setFromCall hcall
  · exact condition hexpression (requiredBlockWith h)
  · exact expect.bind fun _ => hexpression.bind fun _ =>
      (requiredBlockWith h _).bind fun _ => pure
  · exact assignment
  · exact failHere

/-- Within one bound, statements are read alike; by induction on the bound. -/
theorem statements : ∀ bound : Nat, Simulates (Reader.statements bound) (Reader.statements bound)
  | 0 => pure
  | bound + 1 => isAtEnd.bind fun _ => check.bind fun _ => .ite pure
    ((statementWith (statements bound) bound).bind fun _ => (statements bound).bind fun _ => pure)

/-- Within one bound, a program is read alike. -/
theorem programWithin (bound : Nat) :
    Simulates (Reader.programWithin bound) (Reader.programWithin bound) :=
  (statements bound).bind fun _ => isAtEnd.bind fun _ => .ite pure (peek.bind fun _ => failHere)

/-! ### Bounds

The two sides do not count the tokens ahead alike, but neither count is too small. -/

/-- An expression is read alike although the bounds differ. -/
theorem expression : Simulates Reader.expression Reader.expression where
  outcome c := by
    have houtcome := (expressionWith (arguments (c.tokens.length - c.current))).outcome c
    rwa [expressionWith_eq_expression (Nat.le_succ_of_le c.length_view_le)] at houtcome
  advances c := (expressionWith (arguments (c.tokens.length - c.current))).advances c

/-- A call is read alike although the bounds differ. -/
theorem call : Simulates Reader.call Reader.call where
  outcome c := by
    have houtcome := (callWith (arguments (c.tokens.length - c.current))).outcome c
    have hagree : AgreeWithin (c.view.ahead.length - 1)
        (Reader.arguments (c.tokens.length - c.current)) (Reader.arguments c.view.ahead.length) :=
      .arguments (Nat.le_trans (Nat.sub_le ..) c.length_view_le) (Nat.sub_le ..)
    rw [hagree.callWith (.arguments _) c.view (by omega)] at houtcome
    exact houtcome
  advances c := (callWith (arguments (c.tokens.length - c.current))).advances c

/-- A statement is read alike although the bounds differ. -/
theorem statement : Simulates Reader.statement Reader.statement where
  outcome c := by
    have houtcome := (statementWith (statements (c.tokens.length - c.current))
      (c.tokens.length - c.current)).outcome c
    rwa [statementWith_eq_statement (Nat.le_succ_of_le c.length_view_le)] at houtcome
  advances c := (statementWith (statements (c.tokens.length - c.current)) _).advances c

/-- A whole program is read alike although the bounds differ. -/
theorem program : Simulates Reader.program Reader.program where
  outcome c := by
    rw [program_eq_programWithin c.length_view_le]
    exact (programWithin (c.tokens.length - c.current)).outcome c
  advances c := (programWithin (c.tokens.length - c.current)).advances c

/-- Every operation does to an index what it does to a cursor. -/
theorem perform (operation : Operation) : Simulates operation.perform operation.perform := by
  cases operation with
  | advance => exact advance.bind fun _ => pure
  | accept kind => exact accept?.bind fun _ => pure
  | expect kind message => exact expect.bind fun _ => pure
  | expectSemicolon context => exact expectSemicolon.bind fun _ => pure
  | expression => exact expression.bind fun _ => pure
  | call => exact call.bind fun _ => pure
  | statement => exact statement.bind fun _ => pure

end Simulates

end Reader

/-! ## Operations on an index -/

namespace IndexCursor

/-- The index behind operations, carried out one after the other whether they succeed or not. -/
def after (c : IndexCursor) (operations : List Operation) : IndexCursor :=
  operations.foldl (fun c operation => left (operation.perform c)) c

/-- One operation leaves the index at the place where it leaves the cursor. -/
theorem view_left_perform (c : IndexCursor) (operation : Operation) :
    (left (operation.perform c)).view = left (operation.perform c.view) := by
  rw [← left_viewed, (Simulates.perform operation).outcome]

/-- Any number of operations, failing ones included, moves an index as it moves a cursor. -/
theorem view_after (c : IndexCursor) (operations : List Operation) :
    (c.after operations).view = c.view.after operations := by
  induction operations generalizing c with
  | nil => rfl
  | cons operation operations ih =>
    show ((left (operation.perform c)).after operations).view = _
    rw [ih, view_left_perform]
    rfl

/-- Operations advance an index, whether they succeed or not. -/
theorem advances_after (c : IndexCursor) (operations : List Operation) :
    c.Advances (c.after operations) := by
  induction operations generalizing c with
  | nil => exact .stays c
  | cons operation operations ih =>
    exact ((Simulates.perform operation).advances c).trans (ih _)

end IndexCursor

/-- **An index is a cursor.** Let any operations be carried out one after the other on the index before a
list of tokens, failing ones included, and then one more. All the time the index stands where the cursor
of the same list stands, and the last operation finds and reports the same on both. The index never
decreases and never exceeds that of the first end of the input, or the number of tokens if there is none.
A test that fails leaves it as it is, and a construct that is read takes it on. -/
theorem index_bounded_and_monotone (tokens : List Token) (operations : List Operation)
    (operation : Operation) :
    let c := (IndexCursor.ofTokens tokens).after operations
    let k := left (operation.perform c)
    c.view = (Cursor.ofTokens tokens).after operations ∧
      viewed (operation.perform c) = operation.perform c.view ∧
      c.current ≤ k.current ∧ k.current ≤ tokens.findIdx (·.kind == .endOfInput) ∧
      (operation.isTest = true → ¬ operation.SucceedsAt c.view → k = c) ∧
      (operation.isConstruct = true → operation.SucceedsAt c.view → c.current < k.current) := by
  intro c k
  have hc : (IndexCursor.ofTokens tokens).Advances c := IndexCursor.advances_after _ _
  have hk : c.Advances k := (Simulates.perform operation).advances c
  have hview : k.view = left (operation.perform c.view) := c.view_left_perform operation
  have hsum := hk.add_length
  refine ⟨IndexCursor.view_after _ _, (Simulates.perform operation).outcome c, hk.current_le, ?_, ?_,
    ?_⟩
  · have htotal := (hc.trans hk).add_length_ofTokens
    have hend := (Cursor.StandsAt.start tokens).add_length
    omega
  · intro htest hfails
    rw [hview, Operation.left_of_isTest htest hfails] at hsum
    exact hk.eq_of_current_eq (Nat.add_right_cancel hsum)
  · intro hconstruct hsucceeds
    have hfewer := Operation.length_lt_of_isConstruct hconstruct hsucceeds
    rw [← hview] at hfewer
    omega

-- The end of the input stands in the middle of the list, and the index never comes to the semicolon.
example :
    let tokens : List Token :=
      [⟨.sayWord, "say", ⟨1, 1⟩⟩, ⟨.text, "a", ⟨1, 5⟩⟩, ⟨.endOfInput, "", ⟨1, 8⟩⟩,
       ⟨.semicolon, ";", ⟨2, 1⟩⟩]
    let c := (IndexCursor.ofTokens tokens).after [.advance, .expression, .advance, .accept .semicolon]
    c.current = 2 ∧ c.tokens.length = 4 := by
  decide

/-- What stands behind the first end of the input makes no difference to an index, although the list has
it: the same operations take it as far, and it sees the same there. -/
theorem index_after_congr {tokens others : List Token} {n : Nat}
    (hn : n = tokens.findIdx (·.kind == .endOfInput)) (h : n < tokens.length)
    (hsame : others.take (n + 1) = tokens.take (n + 1)) (operations : List Operation) :
    let c := (IndexCursor.ofTokens tokens).after operations
    let d := (IndexCursor.ofTokens others).after operations
    d.current = c.current ∧ d.view = c.view := by
  intro c d
  have hstart := Cursor.ofTokens_congr hn h hsame
  have hview : d.view = c.view := by
    rw [IndexCursor.view_after, IndexCursor.view_after, IndexCursor.view_ofTokens,
      IndexCursor.view_ofTokens, hstart]
  have hc : c.current + c.view.ahead.length = (Cursor.ofTokens tokens).ahead.length :=
    (IndexCursor.advances_after _ operations).add_length_ofTokens
  have hd : d.current + d.view.ahead.length = (Cursor.ofTokens others).ahead.length :=
    (IndexCursor.advances_after _ operations).add_length_ofTokens
  rw [hview, hstart, ← hc] at hd
  exact ⟨Nat.add_right_cancel hd, hview⟩

/-- A program is read from an index as it is from a cursor. -/
theorem result_program_ofTokens (tokens : List Token) :
    result (program (IndexCursor.ofTokens tokens)) = parse tokens := by
  rw [← result_viewed, Simulates.program.outcome, IndexCursor.view_ofTokens, parse_eq_result]

end Parlance
