import Parlance.Proofs.Program.Grammar
import Parlance.Proofs.Program.Reader

/-!
# What a reader consumes

`Follows` measures a reader against the language of what it reads. Where it succeeds, the consumed
tokens spell the value. Where it fails, they are the beginning of some spelling: no token was taken
that the grammar does not allow there, unless it is a number token whose text is no number. The place
of an error is the next token, or the last one consumed for the two faults that are found late.

Every reader follows its language at every bound and every cursor, so the bound plays no part here.
The rules are stated with residual languages: what a sequence reads behind its first part has to
complete what the first part consumed, which is why a failure needs no case of its own.
-/

namespace Parlance

/-- The faults that are found when the token they are about has been consumed. -/
def SyntaxFault.isLate : SyntaxFault → Bool
  | standaloneIdentifier _ => true
  | invalidNumber _ => true
  | _ => false

/-- The fault of a token that no continuation can make good. -/
def SyntaxFault.isInvalidNumber : SyntaxFault → Bool
  | invalidNumber _ => true
  | _ => false

/-- An error stands at the next token, or at the last consumed one if it is found late. -/
def SyntaxError.PlacedBy (error : SyntaxError) (consumed : List Token) (left : Cursor) : Prop :=
  if error.fault.isLate then ∃ last, consumed.getLast? = some last ∧ error.position = last.position
  else error.position = left.peek.position

namespace Reader

variable {α β : Type}

/-- A reader at a cursor, with tokens already consumed behind it, follows a language: what it
consumes spells what it gives, and what it has consumed at an error can still be completed. -/
structure Follows (behind : List Token) (r : Reader α) (Spells : α → List Token → Prop)
    (c : Cursor) : Prop where
  ok : ∀ {v k}, r c = .ok v k → ∃ tokens, c = k.prepend tokens ∧ Spells v tokens
  error : ∀ {e k}, r c = .error e k → ∃ tokens, c = k.prepend tokens ∧
    SyntaxError.PlacedBy e (behind ++ tokens) k ∧
      (e.fault.isInvalidNumber = false → ∃ v more, Spells v (tokens ++ more))
  inhabited : ∃ v tokens, Spells v tokens

/-! ## Rules -/

/-- Readers with one outcome follow the same language there. -/
theorem Follows.congr {behind : List Token} {r s : Reader α} {Spells : α → List Token → Prop}
    {c : Cursor} (h : r c = s c) (hs : Follows behind s Spells c) : Follows behind r Spells c :=
  ⟨fun hr => hs.ok (h ▸ hr), fun hr => hs.error (h ▸ hr), hs.inhabited⟩

/-- A value is given without a token, if the empty list spells it. -/
theorem Follows.pure {behind : List Token} {v : α} {Spells : α → List Token → Prop} {c : Cursor}
    (h : Spells v []) : Follows behind (Pure.pure v) Spells c where
  ok hr := by
    cases hr
    exact ⟨[], rfl, h⟩
  error hr := by cases hr
  inhabited := ⟨v, [], h⟩

/-- A reader that fails without consuming. -/
theorem Follows.fails {behind : List Token} {r : Reader α} {e : SyntaxError}
    {Spells : α → List Token → Prop} {c : Cursor} (hr : r c = .error e c)
    (hplaced : SyntaxError.PlacedBy e behind c) (h : ∃ v tokens, Spells v tokens) :
    Follows behind r Spells c where
  ok hok := by
    rw [hr] at hok
    cases hok
  error herror := by
    rw [hr] at herror
    cases herror
    exact ⟨[], rfl, by rwa [List.append_nil], fun _ => h⟩
  inhabited := h

/-- A failure at the next token has consumed nothing, so anything that is spelled at all completes
it. -/
theorem Follows.failHere {behind : List Token} {fault : SyntaxFault}
    {Spells : α → List Token → Prop} {c : Cursor} (hlate : fault.isLate = false)
    (h : ∃ v tokens, Spells v tokens) : Follows behind (Reader.failHere fault) Spells c := by
  refine .fails (failHere_apply fault c) ?_ h
  rw [SyntaxError.PlacedBy, hlate]
  rfl

/-- A sequence, where the second part may use what the first one met. -/
theorem Follows.bind_of_ok {behind : List Token} {r : Reader α} {f : α → Reader β}
    {First : α → List Token → Prop} {Spells : β → List Token → Prop} {c : Cursor}
    (hr : Follows behind r First c)
    (hf : ∀ v tokens k, First v tokens → r c = .ok v k →
      Follows (behind ++ tokens) (f v) (fun w rest => Spells w (tokens ++ rest)) k)
    (complete : ∀ v tokens, First v tokens → ∃ w rest, Spells w (tokens ++ rest)) :
    Follows behind (r >>= f) Spells c where
  ok h := by
    obtain ⟨v, c₁, hv, hw⟩ := bind_eq_ok.mp h
    obtain ⟨front, rfl, hfirst⟩ := hr.ok hv
    obtain ⟨back, rfl, hspells⟩ := (hf v front c₁ hfirst hv).ok hw
    exact ⟨front ++ back, (Cursor.prepend_append _ _ _).symm, hspells⟩
  error h := by
    rcases bind_eq_error.mp h with he | ⟨v, c₁, hv, he⟩
    · obtain ⟨tokens, hc, hplaced, hmore⟩ := hr.error he
      refine ⟨tokens, hc, hplaced, fun hnumber => ?_⟩
      obtain ⟨v, more, hfirst⟩ := hmore hnumber
      obtain ⟨w, rest, hspells⟩ := complete v _ hfirst
      exact ⟨w, more ++ rest, by rwa [← List.append_assoc]⟩
    · obtain ⟨front, rfl, hfirst⟩ := hr.ok hv
      obtain ⟨back, rfl, hplaced, hmore⟩ := (hf v front c₁ hfirst hv).error he
      refine ⟨front ++ back, (Cursor.prepend_append _ _ _).symm, ?_, fun hnumber => ?_⟩
      · rwa [← List.append_assoc]
      · obtain ⟨w, more, hspells⟩ := hmore hnumber
        exact ⟨w, more, by rwa [List.append_assoc]⟩
  inhabited := by
    obtain ⟨v, tokens, hfirst⟩ := hr.inhabited
    obtain ⟨w, rest, hspells⟩ := complete v tokens hfirst
    exact ⟨w, _, hspells⟩

/-- In a sequence the first part is completed by what completes it and any second part behind that.
-/
theorem Follows.bind {behind : List Token} {r : Reader α} {f : α → Reader β}
    {First : α → List Token → Prop} {Spells : β → List Token → Prop} {c : Cursor}
    (hr : Follows behind r First c)
    (hf : ∀ v tokens, First v tokens → ∀ k,
      Follows (behind ++ tokens) (f v) (fun w rest => Spells w (tokens ++ rest)) k) :
    Follows behind (r >>= f) Spells c :=
  hr.bind_of_ok (fun v tokens k h _ => hf v tokens h k)
    (fun v tokens h => (hf v tokens h c).inhabited)

/-- A required token is taken if it is of the kind; else nothing is, and the fault is there. -/
theorem follows_required {behind : List Token} {kind : TokenKind} {r : Reader α} {v : Token → α}
    {fault : SyntaxFault} {c : Cursor} (hkind : kind ≠ .endOfInput) (hlate : fault.isLate = false)
    (apply : r c = if c.check kind then .ok (v c.peek) c.advance
      else .error ⟨fault, c.peek.position⟩ c) :
    Follows behind r (fun w tokens => ∃ t, t.kind = kind ∧ w = v t ∧ tokens = [t]) c := by
  have inhabited : ∃ (w : α) (tokens : List Token), ∃ t, t.kind = kind ∧ w = v t ∧ tokens = [t] :=
    ⟨_, _, ⟨kind, "", .start⟩, rfl, rfl, rfl⟩
  cases hcheck : c.check kind with
  | false =>
    rw [hcheck] at apply
    refine .fails apply ?_ inhabited
    rw [SyntaxError.PlacedBy, hlate]
    rfl
  | true =>
    rw [if_pos hcheck] at apply
    refine ⟨fun h => ?_, fun h => ?_, inhabited⟩
    · rw [apply] at h
      cases h
      have hend := Cursor.isAtEnd_of_check hkind hcheck
      exact ⟨[c.peek], (Cursor.advance_prepend_peek hend).symm, c.peek,
        Cursor.check_iff.mp hcheck, rfl, rfl⟩
    · rw [apply] at h
      cases h

/-- Behind a token that is required, the rest of a construct is followed; without it, the construct
can be completed by supplying it. -/
theorem Follows.required_bind {behind : List Token} {kind : TokenKind} {r : Reader α} {v : Token → α}
    {fault : SyntaxFault} {f : α → Reader β} {Spells : β → List Token → Prop} {c : Cursor}
    (hkind : kind ≠ .endOfInput) (hlate : fault.isLate = false)
    (apply : r c = if c.check kind then .ok (v c.peek) c.advance
      else .error ⟨fault, c.peek.position⟩ c)
    (hf : ∀ t, t.kind = kind → ∀ k,
      Follows (behind ++ [t]) (f (v t)) (fun w rest => Spells w (t :: rest)) k) :
    Follows behind (r >>= f) Spells c := by
  refine (follows_required hkind hlate apply).bind ?_
  intro _ tokens htaken k
  obtain ⟨t, ht, rfl, rfl⟩ := htaken
  exact hf t ht k

/-- A token that is required by its kind. -/
theorem Follows.expect_bind {behind : List Token} {kind : TokenKind} {message : String}
    {f : Token → Reader β} {Spells : β → List Token → Prop} {c : Cursor}
    (hkind : kind ≠ .endOfInput)
    (hf : ∀ t, t.kind = kind → ∀ k,
      Follows (behind ++ [t]) (f t) (fun w rest => Spells w (t :: rest)) k) :
    Follows behind (expect kind message >>= f) Spells c :=
  .required_bind (v := id) hkind rfl (expect_apply kind message c) hf

/-- The semicolon that closes a statement. -/
theorem Follows.expectSemicolon_bind {behind : List Token} {context : String} {f : Unit → Reader β}
    {Spells : β → List Token → Prop} {c : Cursor}
    (hf : ∀ t, t.kind = .semicolon → ∀ k,
      Follows (behind ++ [t]) (f ()) (fun w rest => Spells w (t :: rest)) k) :
    Follows behind (expectSemicolon context >>= f) Spells c :=
  .required_bind (v := fun _ => ()) (by decide) rfl (expectSemicolon_apply context c) hf

/-- Before a token of a known kind, taking the next token is requiring that kind. -/
theorem Follows.advance_bind {behind : List Token} {kind : TokenKind} {f : Token → Reader β}
    {Spells : β → List Token → Prop} {c : Cursor} (hkind : kind ≠ .endOfInput)
    (hc : c.check kind = true)
    (hf : ∀ t, t.kind = kind → ∀ k,
      Follows (behind ++ [t]) (f t) (fun w rest => Spells w (t :: rest)) k) :
    Follows behind (advance >>= f) Spells c := by
  refine .congr (s := expect kind "" >>= f) ?_ (.expect_bind hkind hf)
  rw [bind_apply, bind_apply, expect_of_check hc]

/-- An optional token leads into one branch, its absence into the other. -/
theorem Follows.accept? {behind : List Token} {kind : TokenKind} {present absent : Reader β}
    {Spells : β → List Token → Prop} {c : Cursor} (hkind : kind ≠ .endOfInput)
    (hpresent : c.check kind = true → ∀ t, t.kind = kind → ∀ k,
      Follows (behind ++ [t]) present (fun w rest => Spells w (t :: rest)) k)
    (habsent : c.check kind = false → Follows behind absent Spells c) :
    Follows behind (Reader.accept? kind >>= fun t => if t.isSome = true then present else absent)
      Spells c := by
  cases hcheck : c.check kind with
  | false => exact .congr (accept?_bind_of_not_check hcheck) (habsent hcheck)
  | true =>
    refine .congr (s := advance >>= fun _ => present) (accept?_bind_of_check hcheck) ?_
    exact .advance_bind hkind hcheck (hpresent hcheck)

/-- A number token and its value. A text that is no number is the one fault without a completion. -/
theorem Follows.numeral {behind : List Token} {message : String} {g : Token → Number → Reader β}
    {Spells : β → List Token → Prop} {c : Cursor}
    (hg : ∀ t v, t.kind = .number → Number.read? t.text = some v → ∀ k,
      Follows (behind ++ [t]) (g t v) (fun w rest => Spells w (t :: rest)) k) :
    Follows behind (expect .number message >>= fun t => numberOf t >>= g t) Spells c := by
  have inhabited : ∃ w tokens, Spells w tokens := by
    obtain ⟨zero, hzero⟩ : ∃ v, Number.read? "0" = some v := ⟨_, rfl⟩
    obtain ⟨w, rest, hspells⟩ := (hg ⟨.number, "0", .start⟩ zero rfl hzero c).inhabited
    exact ⟨w, _, hspells⟩
  cases hcheck : c.check .number with
  | false =>
    refine .congr (s := Reader.failHere (.expected message)) ?_ (.failHere rfl inhabited)
    rw [bind_apply, expect_apply, hcheck]
    rfl
  | true =>
    have hc := Cursor.advance_prepend_peek (Cursor.isAtEnd_of_check (by decide) hcheck)
    have hkind := Cursor.check_iff.mp hcheck
    have run := numeral_bind message g hcheck
    cases hread : Number.read? c.peek.text with
    | none =>
      rw [hread] at run
      refine ⟨fun h => ?_, fun h => ?_, inhabited⟩
      · rw [run] at h
        cases h
      · rw [run] at h
        cases h
        exact ⟨[c.peek], hc.symm, ⟨c.peek, List.getLast?_concat, rfl⟩, fun h => by cases h⟩
    | some v =>
      rw [hread] at run
      have rest := hg c.peek v hkind hread c.advance
      refine ⟨fun h => ?_, fun h => ?_, inhabited⟩
      · rw [run] at h
        obtain ⟨tokens, hk, hspells⟩ := rest.ok h
        exact ⟨c.peek :: tokens, by rw [← hc, hk]; rfl, hspells⟩
      · rw [run] at h
        obtain ⟨tokens, hk, hplaced, hmore⟩ := rest.error h
        refine ⟨c.peek :: tokens, by rw [← hc, hk]; rfl, ?_, hmore⟩
        rwa [List.append_assoc] at hplaced

/-! ## A comma never follows a call

The arguments are read as far as commas go, so behind a call there is none. -/

/-- Arguments go on as long as commas do, so none is next behind them. -/
theorem arguments_leaves_comma {bound : Nat} {c k : Cursor} {v : List Expression}
    (h : arguments bound c = .ok v k) : k.check .comma = false := by
  induction bound generalizing c v with
  | zero => cases h
  | succ bound ih =>
    obtain ⟨first, c₁, _, h⟩ := bind_eq_ok.mp h
    cases hcomma : c₁.check .comma with
    | false =>
      rw [accept?_bind_of_not_check hcomma] at h
      cases h
      exact hcomma
    | true =>
      rw [accept?_bind_of_check hcomma] at h
      obtain ⟨others, c₂, hothers, h⟩ := bind_eq_ok.mp h
      cases h
      exact ih hothers

/-- A call takes every comma behind it for its own arguments. -/
theorem callWith_leaves_comma {bound : Nat} {c k : Cursor} {v : Call}
    (h : callWith (arguments bound) c = .ok v k) : k.check .comma = false := by
  obtain ⟨_, _, _, h⟩ := bind_eq_ok.mp h
  obtain ⟨_, _, _, h⟩ := bind_eq_ok.mp h
  obtain ⟨_, _, _, h⟩ := bind_eq_ok.mp h
  obtain ⟨_, c₁, _, h⟩ := bind_eq_ok.mp h
  rw [peek_bind] at h
  split at h
  · rename_i hends
    cases h
    cases hcomma : k.check .comma with
    | false => rfl
    | true =>
      rw [Cursor.check_iff.mp hcomma] at hends
      cases hends
  · obtain ⟨_, _, harguments, h⟩ := bind_eq_ok.mp h
    cases h
    exact arguments_leaves_comma harguments

/-- An expression before a comma is no call. -/
theorem isCall_of_comma {bound : Nat} {c k : Cursor} {v : Expression}
    (h : expressionWith (arguments bound) c = .ok v k) (hcomma : k.check .comma = true) :
    v.isCall = false := by
  rw [expressionWith_apply] at h
  split at h
  · obtain ⟨_, _, _, h⟩ := bind_eq_ok.mp h
    obtain ⟨_, _, _, h⟩ := bind_eq_ok.mp h
    cases h
    rfl
  · cases h
    rfl
  · cases h
    rfl
  · obtain ⟨target, _, htarget, h⟩ := bind_eq_ok.mp h
    cases h
    rw [callWith_leaves_comma htarget] at hcomma
    cases hcomma
  · cases h

/-! ## Expressions -/

/-- One or more arguments. -/
def SomeArgumentsSpelled (arguments : List Expression) (tokens : List Token) : Prop :=
  arguments ≠ [] ∧ ArgumentsSpelled arguments tokens

/-- Calls are read as they are spelled. -/
theorem follows_callWith {arguments : Reader (List Expression)}
    (h : ∀ behind c, Follows behind arguments SomeArgumentsSpelled c) (behind : List Token)
    (c : Cursor) : Follows behind (callWith arguments) Call.Spelled c := by
  refine .expect_bind (by decide) ?_
  intro start hstart k
  refine .expect_bind (by decide) ?_
  intro name hname k
  refine .expect_bind (by decide) ?_
  intro joined hjoined k
  refine .expect_bind (by decide) ?_
  intro used hused k
  refine .congr (peek_bind _ k) ?_
  split
  · exact .pure (Call.spelled_mk_iff.mpr ⟨hstart, name, joined, used, [], hname, rfl, hjoined,
      hused, argumentsSpelled_nil_iff.mpr rfl, rfl⟩)
  · refine (h _ k).bind ?_
    intro v tokens hspelled k
    obtain ⟨_, hv⟩ := hspelled
    refine .pure ?_
    rw [List.append_nil]
    exact Call.spelled_mk_iff.mpr
      ⟨hstart, name, joined, used, tokens, hname, rfl, hjoined, hused, hv, rfl⟩

/-- There is an expression to complete a construct with. -/
theorem inhabited_expression : ∃ v tokens, Expression.Spelled v tokens :=
  ⟨.text ⟨.text, "", .start⟩ "", [⟨.text, "", .start⟩],
    Expression.spelled_text_iff.mpr ⟨rfl, rfl, rfl⟩⟩

/-- Expressions are read as they are spelled. -/
theorem follows_expressionWith {arguments : Reader (List Expression)}
    (h : ∀ behind c, Follows behind arguments SomeArgumentsSpelled c) (behind : List Token)
    (c : Cursor) : Follows behind (expressionWith arguments) Expression.Spelled c := by
  refine .congr (peek_bind _ c) ?_
  split
  · rename_i hkind
    refine .congr (s := expect .number "" >>= fun t => numberOf t >>= fun v => pure (.number t v))
      ?_ (.numeral fun t v ht hv k => .pure (Expression.spelled_number_iff.mpr ⟨ht, hv, rfl⟩))
    rw [bind_apply, bind_apply, expect_of_check (Cursor.check_iff.mpr hkind)]
  · rename_i hkind
    refine .advance_bind (by decide) (Cursor.check_iff.mpr hkind) ?_
    intro t ht k
    exact .pure (Expression.spelled_text_iff.mpr ⟨ht, rfl, rfl⟩)
  · rename_i hkind
    refine .advance_bind (by decide) (Cursor.check_iff.mpr hkind) ?_
    intro t ht k
    exact .pure (Expression.spelled_reference_iff.mpr ⟨ht, rfl, rfl⟩)
  · refine (follows_callWith h _ c).bind fun target tokens htarget k => .pure ?_
    rw [List.append_nil]
    exact htarget
  · exact .failHere rfl inhabited_expression

/-- Arguments are read as they are spelled, whatever the bound. -/
theorem follows_arguments (bound : Nat) (behind : List Token) (c : Cursor) :
    Follows behind (arguments bound) SomeArgumentsSpelled c := by
  induction bound generalizing behind c with
  | zero =>
    obtain ⟨v, tokens, hv⟩ := inhabited_expression
    exact .congr (peek_bind _ c)
      (.failHere rfl ⟨[v], tokens, List.cons_ne_nil _ _, argumentsSpelled_singleton_iff.mpr hv⟩)
  | succ bound ih =>
    refine (follows_expressionWith ih _ c).bind_of_ok ?_ ?_
    · intro first front k hfirst hread
      refine .accept? (by decide) (fun hcomma comma hkind k' => ?_) (fun _ => .pure ?_)
      · refine (ih _ k').bind ?_
        intro others back h k''
        obtain ⟨hne, hothers⟩ := h
        refine .pure ⟨List.cons_ne_nil _ _, ?_⟩
        rw [List.append_nil]
        obtain ⟨second, others, rfl⟩ := List.exists_cons_of_ne_nil hne
        exact argumentsSpelled_cons_iff.mpr
          ⟨isCall_of_comma hread hcomma, front, comma, back, hfirst, hkind, hothers, rfl⟩
      · rw [List.append_nil]
        exact ⟨List.cons_ne_nil _ _, argumentsSpelled_singleton_iff.mpr hfirst⟩
    · intro first front hfirst
      refine ⟨[first], [], List.cons_ne_nil _ _, ?_⟩
      rw [List.append_nil]
      exact argumentsSpelled_singleton_iff.mpr hfirst

/-! ## Statements -/

/-- There is a block to complete a construct with. -/
theorem inhabited_block : ∃ v tokens, Block.Spelled v tokens :=
  ⟨.mk ⟨.leftBrace, "", .start⟩ [], [⟨.leftBrace, "", .start⟩, ⟨.rightBrace, "", .start⟩],
    Block.spelled_mk_iff.mpr ⟨rfl, [], _, statementsSpelled_nil_iff.mpr rfl, rfl, rfl⟩⟩

/-- Blocks are read as they are spelled. -/
theorem follows_blockWith {statements : Reader (List Statement)}
    (h : ∀ behind c, Follows behind statements StatementsSpelled c) (behind : List Token)
    {c : Cursor} (hc : c.check .leftBrace = true) :
    Follows behind (blockWith statements) Block.Spelled c := by
  refine .advance_bind (by decide) hc ?_
  intro start hstart k
  refine (h _ k).bind ?_
  intro body tokens hbody k
  refine .accept? (by decide) (fun _ closed hclosed k => .pure ?_) (fun _ => .failHere rfl ?_)
  · exact Block.spelled_mk_iff.mpr ⟨hstart, tokens, closed, hbody, hclosed, rfl⟩
  · exact ⟨.mk start body, [⟨.rightBrace, "", .start⟩],
      Block.spelled_mk_iff.mpr ⟨hstart, tokens, _, hbody, rfl, rfl⟩⟩

/-- Where a block is missing, any block completes the statement. -/
theorem follows_requiredBlockWith {statements : Reader (List Statement)}
    (h : ∀ behind c, Follows behind statements StatementsSpelled c) (keyword : String)
    (behind : List Token) (c : Cursor) :
    Follows behind (requiredBlockWith statements keyword) Block.Spelled c := by
  refine .congr (check_bind _ _ c) ?_
  split
  · rename_i hc
    exact follows_blockWith h _ hc
  · exact .failHere rfl inhabited_block

/-- A name at the start of a statement can still be given a value, also where none is given. -/
theorem follows_assignment (behind : List Token) (c : Cursor) :
    Follows behind assignment Statement.Spelled c := by
  refine .expect_bind (by decide) ?_
  intro name hname k
  refine .accept? (by decide) (fun _ has hhas k => ?_) (fun _ => ?_)
  · refine .expect_bind (by decide) ?_
    intro worth hworth k
    refine .numeral ?_
    intro literal value hliteral hvalue k
    refine .expectSemicolon_bind ?_
    intro closed hclosed k
    exact .pure (Statement.spelled_assignNumber_iff.mpr ⟨hname, rfl, has, worth, literal, closed,
      hhas, hworth, hliteral, hvalue, hclosed, rfl⟩)
  · refine .accept? (by decide) (fun _ means hmeans k => ?_) (fun _ => ?_)
    · refine .expect_bind (by decide) ?_
      intro literal hliteral k
      refine .expectSemicolon_bind ?_
      intro closed hclosed k
      exact .pure (Statement.spelled_assignText_iff.mpr
        ⟨hname, rfl, means, literal, closed, hmeans, hliteral, rfl, hclosed, rfl⟩)
    · -- A name without a value is found late: the token behind it is only looked at.
      refine .fails (throw_apply _ k) ⟨name, List.getLast?_concat, rfl⟩ ?_
      exact ⟨.assignText name name.text "",
        [⟨.meansWord, "", .start⟩, ⟨.text, "", .start⟩, ⟨.semicolon, "", .start⟩],
        Statement.spelled_assignText_iff.mpr ⟨hname, rfl, _, _, _, rfl, rfl, rfl, rfl, rfl⟩⟩

/-- A `set` is read as it is spelled. -/
theorem follows_setFromCall {call : Reader Call}
    (h : ∀ behind c, Follows behind call Call.Spelled c) (behind : List Token) (c : Cursor) :
    Follows behind (setFromCall call) Statement.Spelled c := by
  refine .expect_bind (by decide) ?_
  intro start hstart k
  refine .expect_bind (by decide) ?_
  intro name hname k
  refine .expect_bind (by decide) ?_
  intro joined hjoined k
  refine .congr (check_bind _ _ k) ?_
  split
  · refine (h _ k).bind ?_
    intro source tokens hsource k
    refine .expectSemicolon_bind ?_
    intro closed hclosed k
    exact .pure (Statement.spelled_assignCall_iff.mpr
      ⟨hstart, name, joined, tokens, closed, hname, rfl, hjoined, hsource, hclosed, rfl⟩)
  · obtain ⟨source, tokens, hsource⟩ := (h [] k).inhabited
    exact .failHere rfl ⟨.assignCall start name.text source, tokens ++ [⟨.semicolon, "", .start⟩],
      Statement.spelled_assignCall_iff.mpr
        ⟨hstart, name, joined, tokens, _, hname, rfl, hjoined, hsource, rfl, rfl⟩⟩

/-- A condition is read as it is spelled, with an `else` or without. -/
theorem follows_condition {expression : Reader Expression} {block : String → Reader Block}
    (hexpression : ∀ behind c, Follows behind expression Expression.Spelled c)
    (hblock : ∀ keyword behind c, Follows behind (block keyword) Block.Spelled c)
    (behind : List Token) (c : Cursor) :
    Follows behind (condition expression block) Statement.Spelled c := by
  refine .expect_bind (by decide) ?_
  intro start hstart k
  refine (hexpression _ k).bind ?_
  intro asked front hasked k
  refine (hblock _ _ k).bind ?_
  intro body middle hbody k
  refine .accept? (by decide) (fun _ other hother k => ?_) (fun _ => .pure ?_)
  · refine (hblock _ _ k).bind fun alternative back halternative k => .pure ?_
    rw [List.append_nil]
    exact Statement.spelled_ifElse_iff.mpr
      ⟨hstart, front, middle, other, back, hasked, hbody, hother, halternative, rfl⟩
  · rw [List.append_nil]
    exact Statement.spelled_ifThen_iff.mpr ⟨hstart, front, middle, hasked, hbody, rfl⟩

/-- There is a statement to complete a program with. -/
theorem inhabited_statement : ∃ v tokens, Statement.Spelled v tokens := by
  obtain ⟨body, tokens, hbody⟩ := inhabited_block
  exact ⟨.group body, tokens, hbody⟩

/-- Each kind of first token leads into the reader of one construct. -/
theorem follows_statementWith {statements : Reader (List Statement)}
    (h : ∀ behind c, Follows behind statements StatementsSpelled c) (bound : Nat)
    (behind : List Token) (c : Cursor) :
    Follows behind (statementWith bound statements) Statement.Spelled c := by
  have call := follows_callWith (follows_arguments bound)
  have expression := follows_expressionWith (follows_arguments bound)
  have block := follows_requiredBlockWith h
  refine .congr (peek_bind _ c) ?_
  split
  · rename_i hkind
    refine (follows_blockWith h _ (Cursor.check_iff.mpr hkind)).bind ?_
    intro body tokens hbody k
    refine .pure ?_
    rw [List.append_nil]
    exact hbody
  · rename_i hkind
    refine .advance_bind (by decide) (Cursor.check_iff.mpr hkind) ?_
    intro start hstart k
    refine (expression _ k).bind ?_
    intro value tokens hvalue k
    refine .expectSemicolon_bind ?_
    intro closed hclosed k
    exact .pure (Statement.spelled_say_iff.mpr ⟨hstart, tokens, closed, hvalue, hclosed, rfl⟩)
  · refine (call _ c).bind ?_
    intro target tokens htarget k
    refine .expectSemicolon_bind ?_
    intro closed hclosed k
    exact .pure (Statement.spelled_perform_iff.mpr ⟨tokens, closed, htarget, hclosed, rfl⟩)
  · exact follows_setFromCall call _ c
  · exact follows_condition expression block _ c
  · refine .expect_bind (by decide) ?_
    intro start hstart k
    refine (expression _ k).bind ?_
    intro asked front hasked k
    refine (block _ _ k).bind fun body back hbody k => .pure ?_
    rw [List.append_nil]
    exact Statement.spelled_whileLoop_iff.mpr ⟨hstart, front, back, hasked, hbody, rfl⟩
  · exact follows_assignment _ c
  · exact .failHere rfl inhabited_statement

/-- Statements are read as they are spelled, whatever the bound. -/
theorem follows_statements (bound : Nat) (behind : List Token) (c : Cursor) :
    Follows behind (statements bound) StatementsSpelled c := by
  induction bound generalizing behind c with
  | zero => exact .pure (statementsSpelled_nil_iff.mpr rfl)
  | succ bound ih =>
    refine .congr (isAtEnd_bind _ c) (.congr (check_bind _ _ c) ?_)
    split
    · exact .pure (statementsSpelled_nil_iff.mpr rfl)
    · refine (follows_statementWith ih bound _ c).bind ?_
      intro first front hfirst k
      refine (ih _ k).bind fun others back hothers k => .pure ?_
      rw [List.append_nil]
      exact statementsSpelled_cons_iff.mpr ⟨front, back, hfirst, hothers, rfl⟩

/-- Reading a whole program within a bound. -/
def programWithin {σ : Type} [TokenSource σ] (bound : Nat) : Reading σ Program := do
  let body ← statements bound
  if ← isAtEnd then return body
  else failHere (.unexpectedToken (← peek).description)

/-- A program is read within the number of its tokens. -/
theorem program_apply (c : Cursor) : program c = programWithin c.ahead.length c := rfl

/-- A program is read as it is spelled, and behind its statements nothing is. -/
theorem follows_programWithin (bound : Nat) (behind : List Token) (c : Cursor) :
    Follows behind (programWithin bound) StatementsSpelled c := by
  refine (follows_statements bound _ c).bind ?_
  intro body tokens hbody k
  have hbody' : StatementsSpelled body (tokens ++ []) := by rwa [List.append_nil]
  refine .congr (isAtEnd_bind _ k) ?_
  split
  · exact .pure hbody'
  · exact .congr (peek_bind _ k) (.failHere rfl ⟨body, [], hbody'⟩)

/-- A program is read to the end of the input. -/
theorem programWithin_leaves_end {bound : Nat} {c k : Cursor} {v : Program}
    (h : programWithin bound c = .ok v k) : k.isAtEnd = true := by
  obtain ⟨body, c₁, _, h⟩ := bind_eq_ok.mp h
  rw [isAtEnd_bind] at h
  split at h
  · rename_i hend
    cases h
    exact hend
  · cases h

end Reader

end Parlance
