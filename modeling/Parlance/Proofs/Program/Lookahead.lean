import Parlance.Proofs.Program.Completeness

/-!
# One token of lookahead

A reader consumes tokens from the front and looks at most at the token behind them. `LooksOneAhead`
states this as a property of a reader alone: its outcome does not change when everything behind that
token is replaced. The property is kept by sequences, so each reader has it by the shape of its
definition.

The bound of a reader is no part of what it means. Two bounds give the same outcome as soon as both
reach the number of tokens ahead, because a nested construct begins behind at least one token of the
construct around it (`AgreeWithin` counts these tokens).
-/

namespace Parlance

/-! ## Cursors that look alike -/

/-- Two cursors show a reader the same next token. -/
structure Cursor.Alike (c d : Cursor) : Prop where
  peek : c.peek = d.peek
  isAtEnd : c.isAtEnd = d.isAtEnd

/-- Tests of the next token have the same answer at cursors that look alike. -/
theorem Cursor.Alike.check {c d : Cursor} (h : c.Alike d) (kind : TokenKind) :
    c.check kind = d.check kind := by
  rw [Cursor.check, Cursor.check, h.peek]

/-- With the same tokens put before them, cursors that look alike still do. -/
theorem Cursor.Alike.prepend {c d : Cursor} (h : c.Alike d) :
    ∀ tokens : List Token, (c.prepend tokens).Alike (d.prepend tokens)
  | [] => h
  | _ :: _ => ⟨rfl, rfl⟩

namespace Reader

variable {α β : Type}

/-- What a reader gives. -/
abbrev Outcome (α : Type) := EStateM.Result SyntaxError Cursor α

/-- The cursor that an outcome leaves. -/
def left {σ : Type} : EStateM.Result SyntaxError σ α → σ
  | .ok _ k => k
  | .error _ k => k

/-- An outcome that leaves another cursor. -/
def leaving (k : Cursor) : Outcome α → Outcome α
  | .ok v _ => .ok v k
  | .error e _ => .error e k

/-- A reader consumes tokens from the front, and its outcome depends on these and the next one. -/
structure LooksOneAhead (r : Reader α) : Prop where
  consumes : ∀ c, ∃ tokens, c = (left (r c)).prepend tokens
  stable : ∀ {k d : Cursor} {tokens : List Token}, left (r (k.prepend tokens)) = k → k.Alike d →
    r (d.prepend tokens) = leaving d (r (k.prepend tokens))

namespace LooksOneAhead

/-- A reader that consumes nothing looks one token ahead if it gives the same at like cursors. -/
theorem of_still {r : Reader α} (hleft : ∀ c, left (r c) = c)
    (hr : ∀ c d : Cursor, c.Alike d → r d = leaving d (r c)) : LooksOneAhead r where
  consumes c := ⟨[], by rw [hleft]; rfl⟩
  stable {k d tokens} h hd := by
    rw [hleft] at h
    have hnil : tokens = [] := Cursor.prepend_inj.mp (h.trans (Cursor.prepend_nil k).symm)
    subst hnil
    exact hr k d hd

/-- A value that is at hand takes no look at the tokens. -/
theorem pure {v : α} : LooksOneAhead (Pure.pure v) :=
  .of_still (fun _ => rfl) (fun _ _ _ => rfl)

theorem throw {e : SyntaxError} : LooksOneAhead (throw e : Reader α) :=
  .of_still (fun _ => rfl) (fun _ _ _ => rfl)

/-- The next token is the one that may be looked at. -/
theorem peek : LooksOneAhead Reader.peek :=
  .of_still (fun _ => rfl) (fun c d h => by rw [peek_apply, peek_apply, h.peek]; rfl)

/-- Whether the input is over can be seen from the next token. -/
theorem isAtEnd : LooksOneAhead Reader.isAtEnd :=
  .of_still (fun _ => rfl) (fun c d h => by rw [isAtEnd_apply, isAtEnd_apply, h.isAtEnd]; rfl)

/-- The test of a kind is a look at the next token. -/
theorem check {kind : TokenKind} : LooksOneAhead (Reader.check kind) :=
  .of_still (fun _ => rfl) (fun c d h => by rw [check_apply, check_apply, h.check]; rfl)

/-- An error here is placed at the next token, so it depends on no other. -/
theorem failHere {fault : SyntaxFault} : LooksOneAhead (Reader.failHere fault : Reader α) :=
  .of_still (fun _ => rfl) (fun c d h => by rw [failHere_apply, failHere_apply, h.peek]; rfl)

/-- A token that was taken is judged by its own text. -/
theorem numberOf {token : Token} : LooksOneAhead (Reader.numberOf token) := by
  unfold Reader.numberOf
  cases Number.read? token.text with
  | some value => exact pure
  | none => exact throw

/-- What is consumed is the next token; the end of the input is seen and stays. -/
theorem advance : LooksOneAhead Reader.advance where
  consumes c := by
    cases hend : c.isAtEnd with
    | false => exact ⟨[c.peek], (Cursor.advance_prepend_peek hend).symm⟩
    | true =>
      obtain ⟨ahead, finish, hfinish⟩ := c
      cases List.isEmpty_iff.mp hend
      exact ⟨[], rfl⟩
  stable {k d tokens} h hd := by
    match tokens with
    | token :: tokens =>
      have hnil : tokens = [] := Cursor.prepend_inj.mp (h.trans (Cursor.prepend_nil k).symm)
      subst hnil
      rfl
    | [] =>
      -- Nothing is consumed, so the input ends here, and it does at the other cursor.
      have hk : k.ahead = [] := by
        have hlength := congrArg (·.ahead.length) h
        simp only [Cursor.prepend_nil, advance_apply, left, Cursor.advance, List.length_tail]
          at hlength
        exact List.eq_nil_of_length_eq_zero (by omega)
      have hend : d.isAtEnd = true := by rw [← hd.isAtEnd, Cursor.isAtEnd, hk]; rfl
      have hadvance : d.advance = d := by
        obtain ⟨ahead, finish, hfinish⟩ := d
        cases List.isEmpty_iff.mp hend
        rfl
      rw [Cursor.prepend_nil, Cursor.prepend_nil, advance_apply, advance_apply, hadvance, hd.peek]
      rfl

/-- Where the second part of a sequence begins, the two runs still look alike. -/
theorem bind {r : Reader α} {f : α → Reader β} (hr : LooksOneAhead r)
    (hf : ∀ v, LooksOneAhead (f v)) : LooksOneAhead (r >>= f) where
  consumes c := by
    obtain ⟨front, hfront⟩ := hr.consumes c
    rw [bind_apply]
    cases hrun : r c with
    | error e k =>
      rw [hrun] at hfront
      exact ⟨front, hfront⟩
    | ok v c₁ =>
      rw [hrun] at hfront
      obtain ⟨back, hback⟩ := (hf v).consumes c₁
      refine ⟨front ++ back, ?_⟩
      rw [Cursor.prepend_append, ← hback]
      exact hfront
  stable {k d tokens} h hd := by
    rw [bind_apply] at h
    rw [bind_apply, bind_apply]
    obtain ⟨front, hfront⟩ := hr.consumes (k.prepend tokens)
    cases hrun : r (k.prepend tokens) with
    | error e k' =>
      rw [hrun] at h
      have hd' := hr.stable (by rw [hrun]; exact h) hd
      rw [hd', hrun]
      rfl
    | ok v c₁ =>
      rw [hrun] at h hfront
      obtain ⟨back, hback⟩ := (hf v).consumes c₁
      replace h : left (f v c₁) = k := h
      rw [h] at hback
      subst hback
      have htokens : tokens = front ++ back :=
        Cursor.prepend_inj.mp (hfront.trans (Cursor.prepend_append ..).symm)
      subst htokens
      rw [Cursor.prepend_append] at hrun ⊢
      rw [hr.stable (by rw [hrun]; rfl) (hd.prepend back), hrun]
      exact (hf v).stable h hd

theorem ite {p : Prop} [Decidable p] {r s : Reader α} (hr : LooksOneAhead r)
    (hs : LooksOneAhead s) : LooksOneAhead (if p then r else s) := by
  split
  · exact hr
  · exact hs

/-- An optional token is consumed, or looked at and left. -/
theorem accept? {kind : TokenKind} : LooksOneAhead (Reader.accept? kind) :=
  .bind .check fun _ => .ite (.bind .advance fun _ => .pure) .pure

/-- A required token is consumed, or it is the place of the error. -/
theorem expect {kind : TokenKind} {message : String} : LooksOneAhead (Reader.expect kind message) :=
  .bind .check fun _ => .ite .advance .failHere

theorem expectSemicolon {context : String} : LooksOneAhead (Reader.expectSemicolon context) :=
  .bind .check fun _ => .ite (.bind .advance fun _ => .pure) .failHere

/-! ## The readers of the language -/

/-- Behind the four words of a call, the next token tells whether there are arguments. -/
theorem callWith {arguments : Reader (List Expression)} (h : LooksOneAhead arguments) :
    LooksOneAhead (Reader.callWith arguments) :=
  .bind .expect fun _ => .bind .expect fun _ => .bind .expect fun _ => .bind .expect fun _ =>
    .bind .peek fun _ => .ite .pure (.bind h fun _ => .pure)

/-- The first token tells which expression it is. -/
theorem expressionWith {arguments : Reader (List Expression)} (h : LooksOneAhead arguments) :
    LooksOneAhead (Reader.expressionWith arguments) := by
  refine .bind .peek ?_
  intro next
  split
  · exact .bind .advance fun _ => .bind .numberOf fun _ => .pure
  · exact .bind .advance fun _ => .pure
  · exact .bind .advance fun _ => .pure
  · exact .bind (.callWith h) fun _ => .pure
  · exact .failHere

/-- A comma behind an argument is the one token that decides whether another follows. -/
theorem arguments : ∀ bound : Nat, LooksOneAhead (Reader.arguments bound)
  | 0 => .bind .peek fun _ => .failHere
  | bound + 1 => .bind (.expressionWith (arguments bound)) fun _ =>
    .bind .accept? fun _ => .ite (.bind (arguments bound) fun _ => .pure) .pure

/-- A block is known by its brace, and closed by the next token or not at all. -/
theorem blockWith {statements : Reader (List Statement)} (h : LooksOneAhead statements) :
    LooksOneAhead (Reader.blockWith statements) :=
  .bind .advance fun _ => .bind h fun _ => .bind .accept? fun _ => .ite .pure .failHere

/-- Where a block is required, the next token has to open it. -/
theorem requiredBlockWith {statements : Reader (List Statement)} (h : LooksOneAhead statements)
    (keyword : String) : LooksOneAhead (Reader.requiredBlockWith statements keyword) :=
  .bind .check fun _ => .ite (.blockWith h) .failHere

/-- Behind a name, the next token tells what it is given. -/
theorem assignment : LooksOneAhead Reader.assignment := by
  refine .bind .expect fun _ => .bind .accept? fun _ => .ite ?_
    (.bind .accept? fun _ => .ite ?_ .throw)
  · exact .bind .expect fun _ => .bind .expect fun _ => .bind .numberOf fun _ =>
      .bind .expectSemicolon fun _ => .pure
  · exact .bind .expect fun _ => .bind .expectSemicolon fun _ => .pure

/-- Behind `to`, the next token has to begin a call. -/
theorem setFromCall {call : Reader Call} (h : LooksOneAhead call) :
    LooksOneAhead (Reader.setFromCall call) :=
  .bind .expect fun _ => .bind .expect fun _ => .bind .expect fun _ => .bind .check fun _ =>
    .ite (.bind h fun _ => .bind .expectSemicolon fun _ => .pure) .failHere

/-- The token behind the first block tells whether there is a second one. -/
theorem condition {expression : Reader Expression} {block : String → Reader Block}
    (hexpression : LooksOneAhead expression) (hblock : ∀ keyword, LooksOneAhead (block keyword)) :
    LooksOneAhead (Reader.condition expression block) :=
  .bind .expect fun _ => .bind hexpression fun _ => .bind (hblock _) fun _ =>
    .bind .accept? fun _ => .ite (.bind (hblock _) fun _ => .pure) .pure

/-- The first token tells which statement it is. -/
theorem statementWith {statements : Reader (List Statement)} (h : LooksOneAhead statements)
    (bound : Nat) : LooksOneAhead (Reader.statementWith bound statements) := by
  have call := callWith (arguments bound)
  have expression := expressionWith (arguments bound)
  refine .bind .peek ?_
  intro next
  split
  · exact .bind (.blockWith h) fun _ => .pure
  · exact .bind .advance fun _ => .bind expression fun _ => .bind .expectSemicolon fun _ => .pure
  · exact .bind call fun _ => .bind .expectSemicolon fun _ => .pure
  · exact .setFromCall call
  · exact .condition expression (.requiredBlockWith h)
  · exact .bind .expect fun _ => .bind expression fun _ =>
      .bind (.requiredBlockWith h _) fun _ => .pure
  · exact .assignment
  · exact .failHere

/-- The next token tells whether a block is over. -/
theorem statements : ∀ bound : Nat, LooksOneAhead (Reader.statements bound)
  | 0 => .pure
  | bound + 1 => .bind .isAtEnd fun _ => .bind .check fun _ => .ite .pure
    (.bind (.statementWith (statements bound) bound) fun _ =>
      .bind (statements bound) fun _ => .pure)

/-- Behind the last statement, the next token is the end of the input or a fault. -/
theorem programWithin (bound : Nat) : LooksOneAhead (Reader.programWithin bound) :=
  .bind (.statements bound) fun _ => .bind .isAtEnd fun _ =>
    .ite .pure (.bind .peek fun _ => .failHere)

end LooksOneAhead

/-! ## Bounds -/

/-- Two readers agree wherever at most so many tokens are ahead. -/
def AgreeWithin (n : Nat) (r s : Reader α) : Prop :=
  ∀ c : Cursor, c.ahead.length ≤ n → r c = s c

namespace AgreeWithin

variable {n m : Nat}

theorem refl (r : Reader α) : AgreeWithin n r r := fun _ _ => rfl

/-- Readers that agree with many tokens ahead agree with fewer. -/
theorem mono {r s : Reader α} (h : AgreeWithin m r s) (hn : n ≤ m) : AgreeWithin n r s :=
  fun c hc => h c (Nat.le_trans hc hn)

/-- The second parts of two sequences begin with no more tokens ahead than the first parts, since a
reader only consumes. -/
theorem bind {r s : Reader α} {f g : α → Reader β} (hr : AgreeWithin n r s)
    (hlooks : LooksOneAhead r) (hf : ∀ v, AgreeWithin n (f v) (g v)) :
    AgreeWithin n (r >>= f) (s >>= g) := by
  intro c hc
  rw [bind_apply, bind_apply, ← hr c hc]
  obtain ⟨tokens, htokens⟩ := hlooks.consumes c
  cases hrun : r c with
  | error e k => rfl
  | ok v k =>
    rw [hrun] at htokens
    refine hf v k ?_
    rw [htokens, Cursor.ahead_prepend, List.length_append] at hc
    exact Nat.le_trans (Nat.le_add_left ..) hc

/-- What is read behind a token of the input has one token less ahead. -/
theorem advance_bind {f g : Token → Reader β} (h : ∀ t, AgreeWithin n (f t) (g t)) :
    AgreeWithin (n + 1) (advance >>= f) (advance >>= g) := by
  intro c hc
  refine h c.peek c.advance ?_
  rw [Cursor.advance, List.length_tail]
  omega

/-- Behind a token that was required and found, one token less is ahead. -/
theorem expect_bind {kind : TokenKind} {message : String} {f g : Token → Reader β}
    (h : ∀ t, AgreeWithin n (f t) (g t)) :
    AgreeWithin (n + 1) (expect kind message >>= f) (expect kind message >>= g) := by
  intro c hc
  rw [bind_apply, bind_apply, expect_apply]
  cases c.check kind with
  | false => rfl
  | true => exact advance_bind h c hc

/-- Behind an optional token, one token less is ahead if it was there. -/
theorem accept?_bind {kind : TokenKind} {f g : Option Token → Reader β}
    (hsome : ∀ t, AgreeWithin n (f (some t)) (g (some t)))
    (hnone : AgreeWithin (n + 1) (f none) (g none)) :
    AgreeWithin (n + 1) (accept? kind >>= f) (accept? kind >>= g) := by
  intro c hc
  rw [bind_apply, bind_apply, accept?_apply]
  cases c.check kind with
  | false => exact hnone c hc
  | true => exact advance_bind hsome c hc

theorem ite {p : Prop} [Decidable p] {r r' s s' : Reader α} (hr : AgreeWithin n r r')
    (hs : AgreeWithin n s s') :
    AgreeWithin n (if p then r else s) (if p then r' else s') := by
  split
  · exact hr
  · exact hs

/-- Behind the four words of a call, fewer tokens are ahead. -/
theorem callWith {arguments others : Reader (List Expression)} (h : AgreeWithin n arguments others)
    (hlooks : LooksOneAhead arguments) :
    AgreeWithin (n + 1) (Reader.callWith arguments) (Reader.callWith others) := by
  refine expect_bind ?_
  intro _
  refine (refl _).bind .expect fun _ => (refl _).bind .expect fun _ => ?_
  refine (refl _).bind .expect fun _ => ?_
  exact (refl _).bind .peek fun _ => .ite (refl _) (h.bind hlooks fun _ => refl _)

/-- An expression has arguments only within a call, so behind a token of its own. -/
theorem expressionWith {arguments others : Reader (List Expression)}
    (h : AgreeWithin n arguments others) (hlooks : LooksOneAhead arguments) :
    AgreeWithin (n + 1) (Reader.expressionWith arguments) (Reader.expressionWith others) := by
  refine (refl _).bind .peek ?_
  intro next
  split
  case h_4 => exact (callWith h hlooks).bind (.callWith hlooks) fun _ => refl _
  all_goals exact refl _

/-- Any two bounds that reach the number of tokens ahead give the same arguments. -/
theorem arguments {n a b : Nat} (ha : n ≤ a) (hb : n ≤ b) :
    AgreeWithin n (Reader.arguments a) (Reader.arguments b) := by
  induction n generalizing a b with
  | zero =>
    -- No token is ahead: whatever the bound, there is no argument to read.
    have hend : ∀ (bound : Nat) (c : Cursor), c.ahead.length ≤ 0 →
        Reader.arguments bound c =
          .error ⟨.unexpectedInExpression c.peek.description, c.peek.position⟩ c := by
      intro bound c hc
      cases bound with
      | zero => rfl
      | succ bound =>
        have hkind : c.peek.kind = .endOfInput :=
          Cursor.peek_kind_of_isAtEnd (List.isEmpty_iff_length_eq_zero.mpr (Nat.le_zero.mp hc))
        rw [Reader.arguments, bind_apply, expressionWith_apply, hkind]
    intro c hc
    rw [hend a c hc, hend b c hc]
  | succ n ih =>
    obtain ⟨a, rfl⟩ : ∃ m, a = m + 1 := ⟨a - 1, by omega⟩
    obtain ⟨b, rfl⟩ : ∃ m, b = m + 1 := ⟨b - 1, by omega⟩
    have hrest : AgreeWithin n (Reader.arguments a) (Reader.arguments b) := ih (by omega) (by omega)
    refine (expressionWith hrest (.arguments a)).bind (.expressionWith (.arguments a)) ?_
    intro first
    refine accept?_bind (fun _ => ?_) (refl _)
    exact hrest.bind (.arguments a) fun _ => refl _

/-- The inside of a block begins behind its brace. -/
theorem blockWith {statements others : Reader (List Statement)}
    (h : AgreeWithin n statements others) (hlooks : LooksOneAhead statements) :
    AgreeWithin (n + 1) (Reader.blockWith statements) (Reader.blockWith others) :=
  advance_bind fun _ => h.bind hlooks fun _ => refl _

theorem requiredBlockWith {statements others : Reader (List Statement)}
    (h : AgreeWithin n statements others) (hlooks : LooksOneAhead statements) (keyword : String) :
    AgreeWithin (n + 1) (Reader.requiredBlockWith statements keyword)
      (Reader.requiredBlockWith others keyword) :=
  (refl _).bind .check fun _ => .ite (blockWith h hlooks) (refl _)

/-- What is nested in a statement begins behind its first token, so a smaller bound is enough for
it. -/
theorem statementWith {statements others : Reader (List Statement)} {a b : Nat}
    (h : AgreeWithin n statements others) (hlooks : LooksOneAhead statements) (ha : n ≤ a)
    (hb : n ≤ b) :
    AgreeWithin (n + 1) (Reader.statementWith a statements) (Reader.statementWith b others) := by
  have harguments : AgreeWithin n (Reader.arguments a) (Reader.arguments b) := arguments ha hb
  have hcall := callWith harguments (.arguments a)
  have hexpression := (expressionWith harguments (.arguments a)).mono (Nat.le_succ n)
  have hblock := fun keyword => (requiredBlockWith h hlooks keyword).mono (Nat.le_succ n)
  refine (refl _).bind .peek ?_
  intro next
  split
  · exact (blockWith h hlooks).bind (.blockWith hlooks) fun _ => refl _
  · exact advance_bind fun _ => hexpression.bind (.expressionWith (.arguments a)) fun _ => refl _
  · exact hcall.bind (.callWith (.arguments a)) fun _ => refl _
  · refine (refl _).bind .expect fun _ => (refl _).bind .expect fun _ => ?_
    refine (refl _).bind .expect fun _ => ?_
    exact (refl _).bind .check fun _ =>
      .ite (hcall.bind (.callWith (.arguments a)) fun _ => refl _) (refl _)
  · refine expect_bind fun _ => hexpression.bind (.expressionWith (.arguments a)) fun _ => ?_
    refine (hblock "if").bind (.requiredBlockWith hlooks _) fun _ => ?_
    refine (refl _).bind .accept? fun _ => ?_
    exact .ite ((hblock "else").bind (.requiredBlockWith hlooks _) fun _ => refl _) (refl _)
  · refine expect_bind fun _ => hexpression.bind (.expressionWith (.arguments a)) fun _ => ?_
    exact (hblock "while").bind (.requiredBlockWith hlooks _) fun _ => refl _
  · exact refl _
  · exact refl _

/-- Any two bounds that reach the number of tokens ahead give the same statements. -/
theorem statements {n a b : Nat} (ha : n ≤ a) (hb : n ≤ b) :
    AgreeWithin n (Reader.statements a) (Reader.statements b) := by
  induction n generalizing a b with
  | zero =>
    have hend : ∀ (bound : Nat) (c : Cursor), c.ahead.length ≤ 0 →
        Reader.statements bound c = .ok [] c := by
      intro bound c hc
      cases bound with
      | zero => rfl
      | succ bound =>
        have hnil : c.isAtEnd = true := List.isEmpty_iff_length_eq_zero.mpr (Nat.le_zero.mp hc)
        rw [Reader.statements, isAtEnd_bind, check_bind, hnil]
        rfl
    intro c hc
    rw [hend a c hc, hend b c hc]
  | succ n ih =>
    obtain ⟨a, rfl⟩ : ∃ m, a = m + 1 := ⟨a - 1, by omega⟩
    obtain ⟨b, rfl⟩ : ∃ m, b = m + 1 := ⟨b - 1, by omega⟩
    have hrest : AgreeWithin n (Reader.statements a) (Reader.statements b) :=
      ih (by omega) (by omega)
    refine (refl _).bind .isAtEnd fun _ => (refl _).bind .check fun _ => .ite (refl _) ?_
    intro c hc
    have hfirst := statementWith hrest (.statements a) (by omega : n ≤ a) (by omega : n ≤ b) c hc
    rw [bind_apply, bind_apply, ← hfirst]
    cases hrun : Reader.statementWith a (Reader.statements a) c with
    | error e k => rfl
    | ok first k =>
      have hfewer := length_lt_of_statementWith hrun
      exact hrest.bind (.statements a) (fun _ => refl _) k (by omega)

end AgreeWithin

/-- A bound that reaches the number of tokens ahead is as good as this number. -/
theorem program_eq_programWithin {c : Cursor} {bound : Nat} (h : c.ahead.length ≤ bound) :
    program c = programWithin bound c :=
  (AgreeWithin.statements (Nat.le_refl _) h).bind (.statements _) (fun _ => .refl _) c
    (Nat.le_refl _)

end Reader

end Parlance
