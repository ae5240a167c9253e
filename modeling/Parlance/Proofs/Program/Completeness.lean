import Parlance.Proofs.Program.Soundness

/-!
# What spells a program is read as that program

A construct is read back from its tokens whatever follows them, as long as what follows cannot
belong to the construct: behind a call no comma and no further argument, behind a condition without an
alternative no `else`. Inside a program the grammar itself provides this, since a call is always
followed by a semicolon or a brace, and no statement begins with `else`.

A reader needs no larger bound than the number of tokens that it is to consume.

With soundness this gives `parse_eq_ok_iff`: reading accepts exactly the spellings of programs.
-/

namespace Parlance

open Reader

variable {k : Cursor} {tokens : List Token} {bound : Nat}

/-! ## First tokens

A construct begins with the token that it keeps. -/

/-- A call begins with its start, which is `do`. -/
theorem Call.exists_of_spelled {target : Call} (h : target.Spelled tokens) :
    ∃ rest, tokens = target.start :: rest ∧ target.start.kind = .doWord := by
  obtain ⟨start, name, arguments⟩ := target
  obtain ⟨hstart, called, joined, used, rest, _, _, _, _, _, rfl⟩ := Call.spelled_mk_iff.mp h
  exact ⟨_, rfl, hstart⟩

/-- The first token of an expression does not end the arguments of a call. -/
theorem Expression.exists_of_spelled {value : Expression} (h : value.Spelled tokens) :
    ∃ rest, tokens = value.start :: rest ∧ endsArguments value.start.kind = false := by
  cases value with
  | number start value =>
    obtain ⟨hstart, _, rfl⟩ := Expression.spelled_number_iff.mp h
    exact ⟨[], rfl, by rw [Expression.start, hstart]; rfl⟩
  | text start content =>
    obtain ⟨hstart, _, rfl⟩ := Expression.spelled_text_iff.mp h
    exact ⟨[], rfl, by rw [Expression.start, hstart]; rfl⟩
  | reference start name =>
    obtain ⟨hstart, _, rfl⟩ := Expression.spelled_reference_iff.mp h
    exact ⟨[], rfl, by rw [Expression.start, hstart]; rfl⟩
  | call target =>
    obtain ⟨rest, rfl, hstart⟩ := Call.exists_of_spelled (Expression.spelled_call_iff.mp h)
    exact ⟨rest, rfl, by rw [Expression.start, hstart]; rfl⟩

/-- The first argument begins with a token that does not end a call. -/
theorem exists_of_argumentsSpelled {first : Expression} {others : List Expression}
    (h : ArgumentsSpelled (first :: others) tokens) :
    ∃ rest, tokens = first.start :: rest ∧ endsArguments first.start.kind = false := by
  cases others with
  | nil => exact Expression.exists_of_spelled (argumentsSpelled_singleton_iff.mp h)
  | cons second others =>
    obtain ⟨_, front, comma, back, hfirst, _, _, rfl⟩ := argumentsSpelled_cons_iff.mp h
    obtain ⟨rest, rfl, hstart⟩ := Expression.exists_of_spelled hfirst
    exact ⟨rest ++ comma :: back, rfl, hstart⟩

/-- A block begins with its start, which is a brace. -/
theorem Block.exists_of_spelled {block : Block} (h : block.Spelled tokens) :
    ∃ rest, tokens = block.start :: rest ∧ block.start.kind = .leftBrace := by
  obtain ⟨start, statements⟩ := block
  obtain ⟨hstart, body, closed, _, _, rfl⟩ := Block.spelled_mk_iff.mp h
  exact ⟨_, rfl, hstart⟩

/-- The first token of a statement neither closes a block nor begins an alternative. -/
theorem Statement.exists_of_spelled {statement : Statement} (h : statement.Spelled tokens) :
    ∃ rest, tokens = statement.start :: rest ∧ statement.start.kind ≠ .rightBrace ∧
      statement.start.kind ≠ .elseWord := by
  cases statement with
  | assignNumber start name value =>
    obtain ⟨hstart, _, _, _, _, _, _, _, _, _, _, rfl⟩ := Statement.spelled_assignNumber_iff.mp h
    exact ⟨_, rfl, by simp [Statement.start, hstart]⟩
  | assignText start name content =>
    obtain ⟨hstart, _, _, _, _, _, _, _, _, rfl⟩ := Statement.spelled_assignText_iff.mp h
    exact ⟨_, rfl, by simp [Statement.start, hstart]⟩
  | assignCall start name source =>
    obtain ⟨hstart, _, _, _, _, _, _, _, _, _, rfl⟩ := Statement.spelled_assignCall_iff.mp h
    exact ⟨_, rfl, by simp [Statement.start, hstart]⟩
  | say start value =>
    obtain ⟨hstart, _, _, _, _, rfl⟩ := Statement.spelled_say_iff.mp h
    exact ⟨_, rfl, by simp [Statement.start, hstart]⟩
  | perform target =>
    obtain ⟨_, closed, htarget, _, rfl⟩ := Statement.spelled_perform_iff.mp h
    obtain ⟨rest, rfl, hstart⟩ := Call.exists_of_spelled htarget
    exact ⟨rest ++ [closed], rfl, by simp [Statement.start, hstart]⟩
  | group body =>
    obtain ⟨rest, rfl, hstart⟩ := Block.exists_of_spelled (Statement.spelled_group_iff.mp h)
    exact ⟨rest, rfl, by simp [Statement.start, hstart]⟩
  | ifThen start condition body =>
    obtain ⟨hstart, _, _, _, _, rfl⟩ := Statement.spelled_ifThen_iff.mp h
    exact ⟨_, rfl, by simp [Statement.start, hstart]⟩
  | ifElse start condition body alternative =>
    obtain ⟨hstart, _, _, _, _, _, _, _, _, rfl⟩ := Statement.spelled_ifElse_iff.mp h
    exact ⟨_, rfl, by simp [Statement.start, hstart]⟩
  | whileLoop start condition body =>
    obtain ⟨hstart, _, _, _, _, rfl⟩ := Statement.spelled_whileLoop_iff.mp h
    exact ⟨_, rfl, by simp [Statement.start, hstart]⟩

/-- Behind a call without arguments, the next token is none of those that go on. -/
theorem check_eq_false_of_endsArguments {kind : TokenKind} (h : endsArguments k.peek.kind = true)
    (hkind : endsArguments kind = false) : k.check kind = false := by
  cases hcheck : k.check kind with
  | false => rfl
  | true =>
    rw [Cursor.check_iff.mp hcheck, hkind] at h
    cases h

/-! ## Fewer tokens ahead

A construct that was read had a first token, so fewer tokens are ahead behind it. -/

namespace Reader

variable {c : Cursor}

/-- A reader of something that is never spelled by nothing has consumed a token. -/
theorem Follows.length_lt {α : Type} {r : Reader α} {Spells : α → List Token → Prop} {v : α}
    (h : Follows [] r Spells c) (hok : r c = .ok v k)
    (hfirst : ∀ {tokens}, Spells v tokens → tokens ≠ []) : k.ahead.length < c.ahead.length := by
  obtain ⟨tokens, rfl, hspelled⟩ := h.ok hok
  have hlength := List.length_pos_iff.mpr (hfirst hspelled)
  rw [Cursor.ahead_prepend, List.length_append]
  omega

/-- A call that was read has at least one token. -/
theorem length_lt_of_callWith {v : Call} (h : callWith (arguments bound) c = .ok v k) :
    k.ahead.length < c.ahead.length := by
  apply (follows_callWith (follows_arguments bound) [] c).length_lt h
  intro tokens hspelled
  obtain ⟨rest, rfl, _⟩ := Call.exists_of_spelled hspelled
  exact List.cons_ne_nil _ _

/-- An expression that was read has at least one token. -/
theorem length_lt_of_expressionWith {v : Expression}
    (h : expressionWith (arguments bound) c = .ok v k) : k.ahead.length < c.ahead.length := by
  apply (follows_expressionWith (follows_arguments bound) [] c).length_lt h
  intro tokens hspelled
  obtain ⟨rest, rfl, _⟩ := Expression.exists_of_spelled hspelled
  exact List.cons_ne_nil _ _

/-- A statement that was read has at least one token. -/
theorem length_lt_of_statementWith {v : Statement}
    (h : statementWith bound (statements bound) c = .ok v k) :
    k.ahead.length < c.ahead.length := by
  apply (follows_statementWith (follows_statements bound) bound [] c).length_lt h
  intro tokens hspelled
  obtain ⟨rest, rfl, _⟩ := Statement.exists_of_spelled hspelled
  exact List.cons_ne_nil _ _

end Reader

/-! ## Expressions -/

namespace Reader

variable {α β : Type}

/-- A required token that stands there is consumed. -/
theorem expect_bind_cons {kind : TokenKind} {message : String} {f : Token → Reader β}
    {token : Token} (h : token.kind = kind) :
    (expect kind message >>= f) (k.prepend (token :: tokens)) = f token (k.prepend tokens) := by
  refine bind_of_ok ?_
  rw [expect_of_check (by simp [h])]
  rfl

theorem expectSemicolon_bind_cons {context : String} {f : Unit → Reader β} {token : Token}
    (h : token.kind = .semicolon) :
    (expectSemicolon context >>= f) (k.prepend (token :: tokens)) = f () (k.prepend tokens) := by
  refine bind_of_ok ?_
  rw [expectSemicolon_apply, if_pos (by simp [h])]
  rfl

/-- An optional token that stands there is consumed. -/
theorem accept?_bind_cons {kind : TokenKind} {f : Option Token → Reader β} {token : Token}
    (h : token.kind = kind) :
    (accept? kind >>= f) (k.prepend (token :: tokens)) = f (some token) (k.prepend tokens) :=
  accept?_bind_of_check (by simp [h])

theorem advance_bind_cons {f : Token → Reader β} {token : Token} :
    (advance >>= f) (k.prepend (token :: tokens)) = f token (k.prepend tokens) := rfl

/-- A token that stands for a number gives it. -/
theorem numberOf_bind {token : Token} {value : Number} {f : Number → Reader β} {c : Cursor}
    (h : Number.read? token.text = some value) : (numberOf token >>= f) c = f value c := by
  refine bind_of_ok ?_
  rw [numberOf_apply, h]

end Reader

mutual
/-- An expression is read from its tokens; only a call minds what follows. -/
theorem Expression.read_spelled : ∀ (value : Expression) {tokens : List Token} {bound : Nat}
    {k : Cursor}, value.Spelled tokens → (value.isCall = true → endsArguments k.peek.kind = true) →
      tokens.length ≤ bound + 1 →
        expressionWith (arguments bound) (k.prepend tokens) = .ok value k
  | .number start value, tokens, bound, k, h, _, _ => by
    obtain ⟨hstart, hvalue, rfl⟩ := Expression.spelled_number_iff.mp h
    rw [expressionWith_apply, Cursor.peek_prepend_cons, hstart]
    dsimp only
    rw [advance_bind_cons, numberOf_bind hvalue]
    rfl
  | .text start content, tokens, bound, k, h, _, _ => by
    obtain ⟨hstart, rfl, rfl⟩ := Expression.spelled_text_iff.mp h
    rw [expressionWith_apply, Cursor.peek_prepend_cons, hstart]
    rfl
  | .reference start name, tokens, bound, k, h, _, _ => by
    obtain ⟨hstart, rfl, rfl⟩ := Expression.spelled_reference_iff.mp h
    rw [expressionWith_apply, Cursor.peek_prepend_cons, hstart]
    rfl
  | .call target, tokens, bound, k, h, hends, hbound => by
    have htarget := Expression.spelled_call_iff.mp h
    have hread := target.read_spelled htarget (hends rfl) hbound
    obtain ⟨rest, rfl, hfirst⟩ := Call.exists_of_spelled htarget
    rw [expressionWith_apply, Cursor.peek_prepend_cons, hfirst]
    dsimp only
    rw [bind_of_ok hread]
    rfl
/-- A call is read from its tokens before a token that ends arguments. -/
theorem Call.read_spelled : ∀ (target : Call) {tokens : List Token} {bound : Nat} {k : Cursor},
    target.Spelled tokens → endsArguments k.peek.kind = true → tokens.length ≤ bound + 1 →
      callWith (arguments bound) (k.prepend tokens) = .ok target k
  | .mk start name arguments, tokens, bound, k, h, hends, hbound => by
    obtain ⟨hstart, called, joined, used, rest, hcalled, rfl, hjoined, hused, hrest, rfl⟩ :=
      Call.spelled_mk_iff.mp h
    rw [callWith, expect_bind_cons hstart, expect_bind_cons hcalled, expect_bind_cons hjoined,
      expect_bind_cons hused, peek_bind]
    match arguments, hrest with
    | [], hrest =>
      cases argumentsSpelled_nil_iff.mp hrest
      rw [Cursor.prepend_nil, if_pos hends]
      rfl
    | first :: others, hrest =>
      have hread : Reader.arguments bound (k.prepend rest) = .ok (first :: others) k :=
        arguments_read_spelled _ (List.cons_ne_nil _ _) hrest hends (by simp at hbound; omega)
      obtain ⟨after, rfl, hnext⟩ := exists_of_argumentsSpelled hrest
      rw [Cursor.peek_prepend_cons, hnext, if_neg Bool.false_ne_true, bind_of_ok hread]
      rfl
/-- Arguments are read from their tokens before a token that ends arguments. -/
theorem arguments_read_spelled : ∀ (values : List Expression) {tokens : List Token} {bound : Nat}
    {k : Cursor}, values ≠ [] → ArgumentsSpelled values tokens → endsArguments k.peek.kind = true →
      tokens.length ≤ bound → arguments bound (k.prepend tokens) = .ok values k
  | [], _, _, _, hne, _, _, _ => absurd rfl hne
  | [last], tokens, bound, k, _, h, hends, hbound => by
    have hlast := argumentsSpelled_singleton_iff.mp h
    obtain ⟨rest, rfl, _⟩ := Expression.exists_of_spelled hlast
    obtain ⟨bound, rfl⟩ : ∃ n, bound = n + 1 := ⟨bound - 1, by simp at hbound; omega⟩
    rw [arguments, bind_of_ok (last.read_spelled hlast (fun _ => hends) hbound),
      accept?_bind_of_not_check (check_eq_false_of_endsArguments hends rfl)]
    rfl
  | first :: second :: others, tokens, bound, k, _, h, hends, hbound => by
    obtain ⟨hcall, front, comma, back, hfirst, hcomma, hothers, rfl⟩ :=
      argumentsSpelled_cons_iff.mp h
    simp only [List.length_append, List.length_cons] at hbound
    obtain ⟨bound, rfl⟩ : ∃ n, bound = n + 1 := ⟨bound - 1, by omega⟩
    have hread : expressionWith (arguments bound) ((k.prepend (comma :: back)).prepend front) =
        .ok first (k.prepend (comma :: back)) :=
      first.read_spelled hfirst (fun h => by rw [hcall] at h; cases h) (by omega)
    have hrest : arguments bound (k.prepend back) = .ok (second :: others) k :=
      arguments_read_spelled _ (List.cons_ne_nil _ _) hothers hends (by omega)
    rw [arguments, Cursor.prepend_append, bind_of_ok hread, accept?_bind_cons hcomma]
    simp only [Option.isSome_some, if_true]
    rw [bind_of_ok hrest]
    rfl
end

/-! ## Statements -/

/-- What may follow the statements of a block or a program. -/
theorem endsArguments_of_ends (h : (k.isAtEnd || k.check .rightBrace) = true) :
    endsArguments k.peek.kind = true := by
  rcases Bool.or_eq_true_iff.mp h with hend | hclosed
  · rw [Cursor.peek_kind_of_isAtEnd hend]
    rfl
  · rw [Cursor.check_iff.mp hclosed]
    rfl

/-- No `else` stands before statements, nor behind all of them. -/
theorem check_else_of_statementsSpelled {statements : List Statement}
    (h : StatementsSpelled statements tokens) (hends : (k.isAtEnd || k.check .rightBrace) = true) :
    (k.prepend tokens).check .elseWord = false := by
  cases statements with
  | nil =>
    cases statementsSpelled_nil_iff.mp h
    exact check_eq_false_of_endsArguments (endsArguments_of_ends hends) rfl
  | cons first others =>
    obtain ⟨front, back, hfirst, _, rfl⟩ := statementsSpelled_cons_iff.mp h
    obtain ⟨rest, rfl, _, helse⟩ := Statement.exists_of_spelled hfirst
    exact beq_eq_false_iff_ne.mpr helse

/-- The body of a condition or a loop, its reader known to read the statements within. -/
theorem requiredBlockWith_of_blockWith {statements : Reader (List Statement)} {keyword : String}
    {block : Block} (h : block.Spelled tokens)
    (hread : blockWith statements (k.prepend tokens) = .ok block k) :
    requiredBlockWith statements keyword (k.prepend tokens) = .ok block k := by
  obtain ⟨rest, rfl, hfirst⟩ := Block.exists_of_spelled h
  rw [requiredBlockWith, check_bind, Cursor.check_prepend_cons, hfirst]
  exact hread

/-- A condition is read before the block that it governs. -/
theorem condition_read_spelled {asked : Expression} {body : Block} {front back : List Token}
    (hasked : asked.Spelled front) (hbody : body.Spelled back) (hbound : front.length ≤ bound + 1) :
    expressionWith (arguments bound) ((k.prepend back).prepend front) =
      .ok asked (k.prepend back) := by
  obtain ⟨rest, rfl, hfirst⟩ := Block.exists_of_spelled hbody
  exact asked.read_spelled hasked (fun _ => by simp [hfirst, endsArguments]) hbound

mutual
/-- A statement is read from its tokens, unless `else` follows. -/
theorem Statement.read_spelled : ∀ (statement : Statement) {tokens : List Token} {bound : Nat}
    {k : Cursor}, statement.Spelled tokens → k.check .elseWord = false →
      tokens.length ≤ bound + 1 →
        statementWith bound (statements bound) (k.prepend tokens) = .ok statement k
  | .assignNumber start name value, tokens, bound, k, h, _, _ => by
    obtain ⟨hstart, rfl, has, worth, literal, closed, hhas, hworth, hliteral, hvalue, hclosed,
      rfl⟩ := Statement.spelled_assignNumber_iff.mp h
    rw [statementWith, peek_bind, Cursor.peek_prepend_cons, hstart]
    dsimp only
    rw [assignment, expect_bind_cons hstart, accept?_bind_cons hhas]
    simp only [Option.isSome_some, if_true]
    rw [expect_bind_cons hworth, expect_bind_cons hliteral, numberOf_bind hvalue,
      expectSemicolon_bind_cons hclosed]
    rfl
  | .assignText start name content, tokens, bound, k, h, _, _ => by
    obtain ⟨hstart, rfl, means, literal, closed, hmeans, hliteral, rfl, hclosed, rfl⟩ :=
      Statement.spelled_assignText_iff.mp h
    rw [statementWith, peek_bind, Cursor.peek_prepend_cons, hstart]
    dsimp only
    rw [assignment, expect_bind_cons hstart, accept?_bind_of_not_check (by simp [hmeans])]
    simp only [Option.isSome_none, Bool.false_eq_true, if_false]
    rw [accept?_bind_cons hmeans]
    simp only [Option.isSome_some, if_true]
    rw [expect_bind_cons hliteral, expectSemicolon_bind_cons hclosed]
    rfl
  | .assignCall start name source, tokens, bound, k, h, _, hbound => by
    obtain ⟨hstart, target, joined, rest, closed, htarget, rfl, hjoined, hsource, hclosed, rfl⟩ :=
      Statement.spelled_assignCall_iff.mp h
    have hread : callWith (arguments bound) ((k.prepend [closed]).prepend rest) =
        .ok source (k.prepend [closed]) :=
      source.read_spelled hsource (by simp [hclosed, endsArguments]) (by simp at hbound; omega)
    obtain ⟨after, rfl, hfirst⟩ := Call.exists_of_spelled hsource
    rw [statementWith, peek_bind, Cursor.peek_prepend_cons, hstart]
    dsimp only
    rw [setFromCall, expect_bind_cons hstart, expect_bind_cons htarget, expect_bind_cons hjoined,
      check_bind, Cursor.prepend_append, Cursor.check_prepend_cons, hfirst]
    simp only [beq_self_eq_true, if_true]
    rw [bind_of_ok hread, expectSemicolon_bind_cons hclosed]
    rfl
  | .say start value, tokens, bound, k, h, _, hbound => by
    obtain ⟨hstart, front, closed, hvalue, hclosed, rfl⟩ := Statement.spelled_say_iff.mp h
    have hread : expressionWith (arguments bound) ((k.prepend [closed]).prepend front) =
        .ok value (k.prepend [closed]) :=
      value.read_spelled hvalue (fun _ => by simp [hclosed, endsArguments])
        (by simp at hbound; omega)
    rw [statementWith, peek_bind, Cursor.peek_prepend_cons, hstart]
    dsimp only
    rw [advance_bind_cons, Cursor.prepend_append, bind_of_ok hread,
      expectSemicolon_bind_cons hclosed]
    rfl
  | .perform target, tokens, bound, k, h, _, hbound => by
    obtain ⟨front, closed, htarget, hclosed, rfl⟩ := Statement.spelled_perform_iff.mp h
    have hread : callWith (arguments bound) ((k.prepend [closed]).prepend front) =
        .ok target (k.prepend [closed]) :=
      target.read_spelled htarget (by simp [hclosed, endsArguments]) (by simp at hbound; omega)
    obtain ⟨after, rfl, hfirst⟩ := Call.exists_of_spelled htarget
    rw [statementWith, peek_bind, Cursor.prepend_append, Cursor.peek_prepend_cons, hfirst]
    dsimp only
    rw [bind_of_ok hread, expectSemicolon_bind_cons hclosed]
    rfl
  | .group body, tokens, bound, k, h, _, hbound => by
    have hbody := Statement.spelled_group_iff.mp h
    have hread := body.read_spelled (k := k) hbody hbound
    obtain ⟨rest, rfl, hfirst⟩ := Block.exists_of_spelled hbody
    rw [statementWith, peek_bind, Cursor.peek_prepend_cons, hfirst]
    dsimp only
    rw [bind_of_ok hread]
    rfl
  | .ifThen start asked body, tokens, bound, k, h, helse, hbound => by
    obtain ⟨hstart, front, back, hasked, hbody, rfl⟩ := Statement.spelled_ifThen_iff.mp h
    simp only [List.length_cons, List.length_append] at hbound
    have hblock : requiredBlockWith (statements bound) "if" (k.prepend back) = .ok body k :=
      requiredBlockWith_of_blockWith hbody (body.read_spelled hbody (by omega))
    rw [statementWith, peek_bind, Cursor.peek_prepend_cons, hstart]
    dsimp only
    rw [condition, expect_bind_cons hstart, Cursor.prepend_append,
      bind_of_ok (condition_read_spelled hasked hbody (by omega)), bind_of_ok hblock,
      accept?_bind_of_not_check helse]
    rfl
  | .ifElse start asked body alternative, tokens, bound, k, h, _, hbound => by
    obtain ⟨hstart, front, middle, other, back, hasked, hbody, hother, halternative, rfl⟩ :=
      Statement.spelled_ifElse_iff.mp h
    simp only [List.length_cons, List.length_append] at hbound
    have hblock : requiredBlockWith (statements bound) "if"
        ((k.prepend (other :: back)).prepend middle) = .ok body (k.prepend (other :: back)) :=
      requiredBlockWith_of_blockWith hbody (body.read_spelled hbody (by omega))
    have hother' : requiredBlockWith (statements bound) "else" (k.prepend back) =
        .ok alternative k :=
      requiredBlockWith_of_blockWith halternative (alternative.read_spelled halternative (by omega))
    rw [statementWith, peek_bind, Cursor.peek_prepend_cons, hstart]
    dsimp only
    rw [condition, expect_bind_cons hstart, Cursor.prepend_append, Cursor.prepend_append,
      bind_of_ok (condition_read_spelled hasked hbody (by omega)), bind_of_ok hblock,
      accept?_bind_cons hother]
    simp only [Option.isSome_some, if_true]
    rw [bind_of_ok hother']
    rfl
  | .whileLoop start asked body, tokens, bound, k, h, _, hbound => by
    obtain ⟨hstart, front, back, hasked, hbody, rfl⟩ := Statement.spelled_whileLoop_iff.mp h
    simp only [List.length_cons, List.length_append] at hbound
    have hblock : requiredBlockWith (statements bound) "while" (k.prepend back) = .ok body k :=
      requiredBlockWith_of_blockWith hbody (body.read_spelled hbody (by omega))
    rw [statementWith, peek_bind, Cursor.peek_prepend_cons, hstart]
    dsimp only
    rw [expect_bind_cons hstart, Cursor.prepend_append,
      bind_of_ok (condition_read_spelled hasked hbody (by omega)), bind_of_ok hblock]
    rfl
/-- A block is read from its tokens whatever follows. -/
theorem Block.read_spelled : ∀ (block : Block) {tokens : List Token} {bound : Nat} {k : Cursor},
    block.Spelled tokens → tokens.length ≤ bound + 1 →
      blockWith (statements bound) (k.prepend tokens) = .ok block k
  | .mk start body, tokens, bound, k, h, hbound => by
    obtain ⟨hstart, rest, closed, hrest, hclosed, rfl⟩ := Block.spelled_mk_iff.mp h
    have hread : statements bound ((k.prepend [closed]).prepend rest) =
        .ok body (k.prepend [closed]) :=
      statements_read_spelled body hrest (by simp [hclosed]) (by simp at hbound; omega)
    rw [blockWith, advance_bind_cons, Cursor.prepend_append, bind_of_ok hread,
      accept?_bind_cons hclosed]
    rfl
/-- Statements are read from their tokens before the end of a block or of the input. -/
theorem statements_read_spelled : ∀ (body : List Statement) {tokens : List Token} {bound : Nat}
    {k : Cursor}, StatementsSpelled body tokens → (k.isAtEnd || k.check .rightBrace) = true →
      tokens.length ≤ bound → statements bound (k.prepend tokens) = .ok body k
  | [], tokens, bound, k, h, hends, _ => by
    cases statementsSpelled_nil_iff.mp h
    cases bound with
    | zero => rfl
    | succ bound =>
      rw [statements, isAtEnd_bind, check_bind, Cursor.prepend_nil, if_pos hends]
      rfl
  | first :: others, tokens, bound, k, h, hends, hbound => by
    obtain ⟨front, back, hfirst, hothers, rfl⟩ := statementsSpelled_cons_iff.mp h
    obtain ⟨rest, rfl, hclosed, _⟩ := Statement.exists_of_spelled hfirst
    simp only [List.length_append, List.length_cons] at hbound
    obtain ⟨bound, rfl⟩ : ∃ n, bound = n + 1 := ⟨bound - 1, by omega⟩
    have hread : statementWith bound (statements bound)
        ((k.prepend back).prepend (first.start :: rest)) = .ok first (k.prepend back) :=
      first.read_spelled hfirst (check_else_of_statementsSpelled hothers hends)
        (by simp only [List.length_cons]; omega)
    have hrest : statements bound (k.prepend back) = .ok others k :=
      statements_read_spelled others hothers hends (by omega)
    rw [statements, isAtEnd_bind, check_bind, Cursor.prepend_append, if_neg (by simp [hclosed]),
      bind_of_ok hread, bind_of_ok hrest]
    rfl
end

/-! ## Programs -/

/-- Tokens are parsed if a program is read from the cursor before them. -/
theorem parse_eq_ok {tokens : List Token} {program : Program} :
    parse tokens = .ok program ↔ ∃ k, Reader.program (Cursor.ofTokens tokens) = .ok program k := by
  unfold parse
  cases Reader.program (Cursor.ofTokens tokens) with
  | ok value k =>
    constructor
    · intro h
      cases h
      exact ⟨k, rfl⟩
    · intro h
      obtain ⟨_, h⟩ := h
      cases h
      rfl
  | error e k => simp

/-- The tokens before the end of the input. -/
theorem take_findIdx_endOfInput (tokens : List Token) :
    tokens.take (tokens.findIdx (·.kind == .endOfInput)) = (Cursor.ofTokens tokens).ahead := by
  have h : tokens.takeWhile (·.kind != .endOfInput) =
      tokens.take (tokens.findIdx fun token => !(token.kind != .endOfInput)) :=
    List.takeWhile_eq_take_findIdx_not
  simpa [Cursor.ofTokens, bne] using h.symm

/-- Reading accepts exactly the spellings of programs. -/
theorem parse_eq_ok_iff {tokens : List Token} {program : Program} :
    parse tokens = .ok program ↔ StatementsSpelled program (Cursor.ofTokens tokens).ahead := by
  rw [parse_eq_ok]
  constructor
  · intro h
    obtain ⟨k, h⟩ := h
    rw [program_apply] at h
    obtain ⟨consumed, hc, hspelled⟩ := (follows_programWithin _ [] _).ok h
    have hend := List.isEmpty_iff.mp (programWithin_leaves_end h)
    rwa [hc, Cursor.ahead_prepend, hend, List.append_nil]
  · intro h
    let k : Cursor := { Cursor.ofTokens tokens with ahead := [] }
    have hk : k.prepend (Cursor.ofTokens tokens).ahead = Cursor.ofTokens tokens := by
      simp only [Cursor.prepend, k, List.append_nil]
    have hread := statements_read_spelled program (k := k) h rfl (Nat.le_refl _)
    rw [hk] at hread
    refine ⟨k, ?_⟩
    rw [program_apply, programWithin, bind_of_ok hread]
    rfl

/-- **Reading accepts exactly the token grammar and loses nothing.** The tokens before the end of
the input are the leaves of the program read, in order, and every node keeps the first token of its
own segment. Conversely, tokens that flatten a program whose calls nest only as last arguments are
read as this program, up to the tokens that its nodes keep. -/
theorem parse_accepts_token_grammar (tokens : List Token) :
    let n := tokens.findIdx (·.kind == .endOfInput)
    (∀ program, parse tokens = .ok program →
      List.Forall₂ Leaf.FilledBy (Program.leaves program) (tokens.take n)) ∧
    ∀ program : Program, program.callsLast = true →
      (tokens.take n).map Token.symbol? = program.leaves.map (some ·.symbol) →
        (parse tokens).map Program.forgetStarts = .ok program.forgetStarts := by
  intro n
  have hcontent : tokens.take n = (Cursor.ofTokens tokens).ahead := take_findIdx_endOfInput tokens
  rw [hcontent]
  refine ⟨fun program h => (parse_eq_ok_iff.mp h).2, fun program hcalls hsymbols => ?_⟩
  have hspelled : List.Forall₂ Leaf.SpelledBy program.leaves (Cursor.ofTokens tokens).ahead := by
    rw [← List.forall₂_eq_eq_eq, List.forall₂_map_left_iff, List.forall₂_map_right_iff] at hsymbols
    exact hsymbols.flip
  obtain ⟨other, hforget, hfilled⟩ := statements_relabelled program hspelled
  have hcalls' : statementsCallsLast other = true := by
    rw [← statementsCallsLast_forgetStarts, hforget, statementsCallsLast_forgetStarts]
    exact hcalls
  rw [parse_eq_ok_iff.mpr ⟨hcalls', hfilled⟩]
  exact congrArg Except.ok hforget

/-- A nested call at the end of the arguments, and tokens behind the end of the input. -/
theorem parse_accepts_nested_call :
    let tokens : List Token :=
      [⟨.doWord, "do", ⟨1, 1⟩⟩, ⟨.identifier, "f", ⟨1, 4⟩⟩, ⟨.andWord, "and", ⟨1, 6⟩⟩,
       ⟨.useWord, "use", ⟨1, 10⟩⟩, ⟨.identifier, "x", ⟨1, 14⟩⟩, ⟨.comma, ",", ⟨1, 15⟩⟩,
       ⟨.doWord, "do", ⟨1, 17⟩⟩, ⟨.identifier, "g", ⟨1, 20⟩⟩, ⟨.andWord, "and", ⟨1, 22⟩⟩,
       ⟨.useWord, "use", ⟨1, 26⟩⟩, ⟨.semicolon, ";", ⟨1, 29⟩⟩, ⟨.endOfInput, "", ⟨1, 30⟩⟩,
       ⟨.comma, ",", ⟨2, 1⟩⟩]
    let program : Program :=
      [.perform (.mk .forgotten "f" [.reference .forgotten "x", .call (.mk .forgotten "g" [])])]
    (∃ read, parse tokens = .ok read ∧
      List.Forall₂ Leaf.FilledBy (Program.leaves read) (tokens.take 11)) ∧
    program.callsLast = true ∧
      (parse tokens).map Program.forgetStarts = .ok program.forgetStarts := by
  intro tokens program
  exact ⟨⟨_, rfl, (parse_accepts_token_grammar tokens).1 _ rfl⟩, rfl,
    (parse_accepts_token_grammar tokens).2 program rfl rfl⟩

end Parlance
