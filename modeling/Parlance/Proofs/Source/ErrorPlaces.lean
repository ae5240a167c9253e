import Parlance.Proofs.Program.Completeness
import Parlance.Proofs.Run.Parts
import Parlance.Proofs.Run.Rounds
import Parlance.Proofs.Token.Splitting

/-!
# Runtime errors stand at what failed

A runtime error carries a place, and the place is that of a token of the source: of the name that has
no value, of the `do` of the call that failed, or of the `say` whose output did. `RuntimeFault.Blames`
says which token a fault is reported at.

A place goes a long way. The lexer gives it to a token, a reader keeps the token in the tree, and the
evaluator takes it from there. The first two steps are known (`parse_eq_ok_iff`: a node keeps the first
token of what spells it); `FailsWithin` follows the third one. It is kept by sequences and loops, so a
part of a program fails only at the tokens that spell it (`Statement.failsWithin`).
-/

namespace Parlance

/-! ## The token that a fault is about -/

/-- A fault is reported at this token, given the token behind it. -/
def RuntimeFault.Blames (token : Token) (next : Option Token) : RuntimeFault → Prop
  | unknownVariable name => token.kind = .identifier ∧ token.text = name
  | unknownMethod name => token.kind = .doWord ∧
      ∃ called, next = some called ∧ called.kind = .identifier ∧ called.text = name
  | argumentCount _ _ _ => token.kind = .doWord
  | expectedNumber => token.kind = .doWord
  | expectedText => token.kind = .doWord
  | divisionByZero => token.kind = .doWord
  | inputExhausted => token.kind = .doWord
  | stream _ => token.kind = .sayWord ∨ token.kind = .doWord

/-- The faults that a call by a name can end in, its arguments aside. -/
def RuntimeFault.OfCall (name : String) : RuntimeFault → Prop
  | unknownVariable _ => False
  | unknownMethod other => other = name
  | _ => True

/-- An error stands at one of these tokens, which is the one it is about. -/
def BlamedIn (tokens : List Token) (e : RuntimeError) : Prop :=
  ∃ (i : Nat) (token : Token), tokens[i]? = some token ∧ e.position = token.position ∧
    e.fault.Blames token tokens[i + 1]?

/-- No fault is placed at the end of the input. -/
theorem RuntimeFault.Blames.kind_ne_endOfInput {fault : RuntimeFault} {token : Token}
    {next : Option Token} (h : fault.Blames token next) : token.kind ≠ .endOfInput := by
  intro hkind
  cases fault <;> simp [Blames, hkind] at h

/-- More tokens before and behind take nothing away. -/
theorem BlamedIn.of_part {tokens others : List Token} {e : RuntimeError} (h : BlamedIn tokens e)
    (hpart : tokens <:+: others) : BlamedIn others e := by
  obtain ⟨front, back, rfl⟩ := hpart
  obtain ⟨i, token, htoken, hposition, hblames⟩ := h
  have hkeeps : ∀ {j : Nat} {t : Token}, tokens[j]? = some t →
      (front ++ tokens ++ back)[front.length + j]? = some t := by
    intro j t ht
    obtain ⟨hj, -⟩ := List.getElem?_eq_some_iff.mp ht
    rw [List.append_assoc, List.getElem?_append_right (Nat.le_add_right _ _),
      Nat.add_sub_cancel_left, List.getElem?_append_left hj, ht]
  refine ⟨front.length + i, token, hkeeps htoken, hposition, ?_⟩
  generalize e.fault = fault at hblames ⊢
  cases fault with
  | unknownMethod name =>
    obtain ⟨hkind, called, hcalled, hname⟩ := hblames
    exact ⟨hkind, called, hkeeps hcalled, hname⟩
  | _ => exact hblames

/-- What a call fails with is reported at its first token, before the name. -/
theorem BlamedIn.of_call {start called : Token} {rest : List Token} {e : RuntimeError}
    (hstart : start.kind = .doWord) (hcalled : called.kind = .identifier)
    (hposition : e.position = start.position) (hfault : e.fault.OfCall called.text) :
    BlamedIn (start :: called :: rest) e := by
  refine ⟨0, start, rfl, hposition, ?_⟩
  generalize e.fault = fault at hfault ⊢
  cases fault with
  | unknownVariable name => exact hfault.elim
  | unknownMethod name => exact ⟨hstart, called, rfl, hcalled, hfault.symm⟩
  | stream fault => exact .inr hstart
  | _ => exact hstart

/-! ## What a run can fail with -/

namespace Run

open Sequencing

variable {α β : Type} {Allowed : RuntimeError → Prop}

/-- A run fails with no other errors than these. -/
def FailsWithin (Allowed : RuntimeError → Prop) (r : Run α) : Prop :=
  ∀ (m k : Machine) (e : RuntimeError), r m = .error (.failed e) k → Allowed e

namespace FailsWithin

/-- A run that fails within some errors fails within more. -/
theorem mono {Other : RuntimeError → Prop} {r : Run α} (h : FailsWithin Allowed r)
    (hallowed : ∀ {e}, Allowed e → Other e) : FailsWithin Other r :=
  fun m k e hrun => hallowed (h m k e hrun)

theorem pure (v : α) : FailsWithin Allowed (Pure.pure v) := fun _ _ _ hrun => by cases hrun

theorem get : FailsWithin Allowed (MonadState.get : Run Machine) := fun _ _ _ hrun => by cases hrun

theorem assign (name : String) (value : Value) : FailsWithin Allowed (Run.assign name value) :=
  fun _ _ _ hrun => by cases hrun

/-- A failure is within what allows it. -/
theorem fail {fault : RuntimeFault} {position : Position} (h : Allowed ⟨fault, position⟩) :
    FailsWithin Allowed (Run.fail fault position : Run α) := by
  intro m k e hrun
  cases hrun
  exact h

/-- A computed fault is placed where it was computed for. -/
theorem ofExcept {position : Position} {result : Except RuntimeFault α}
    (h : ∀ fault, result = .error fault → Allowed ⟨fault, position⟩) :
    FailsWithin Allowed (Run.ofExcept position result) := by
  cases result with
  | ok v => exact pure v
  | error fault => exact fail (h fault rfl)

/-- Every fault of the streams is placed where the action is. -/
theorem console {position : Position} {action : Console α}
    (h : ∀ fault, Allowed ⟨.stream fault, position⟩) :
    FailsWithin Allowed (Run.console position action) := by
  intro m k e hrun
  unfold Run.console at hrun
  split at hrun <;> cases hrun
  exact h _

/-- A missing variable is placed where it is looked up. -/
theorem lookup {name : String} {position : Position} (h : Allowed ⟨.unknownVariable name, position⟩) :
    FailsWithin Allowed (Run.lookup name position) := by
  intro m k e hrun
  have hfails : FailsWithin Allowed (Run.ofExcept position (m.environment.get name)) := by
    refine ofExcept fun fault hfault => ?_
    unfold Environment.get at hfault
    split at hfault <;> cases hfault
    exact h
  exact hfails m k e hrun

/-- A sequence fails within what its parts fail within. -/
theorem bind {r : Run α} {f : α → Run β} (hr : FailsWithin Allowed r)
    (hf : ∀ v, FailsWithin Allowed (f v)) : FailsWithin Allowed (r >>= f) := by
  intro m k e hrun
  rcases bind_eq_error.mp hrun with hrun | ⟨v, m₁, -, hrun⟩
  · exact hr m k e hrun
  · exact hf v m₁ k e hrun

theorem ite {p : Prop} [Decidable p] {r s : Run α} (hr : FailsWithin Allowed r)
    (hs : FailsWithin Allowed s) : FailsWithin Allowed (if p then r else s) := by
  split
  · exact hr
  · exact hs

/-- What is said of the errors of runs goes through sequences of them. -/
theorem sequential (Allowed : RuntimeError → Prop) : Sequential (FailsWithin Allowed) where
  pure v := pure v
  bind hr hf := bind hr hf
  unfinished := fun _ _ _ hrun => by cases hrun

theorem repeatWhile {condition : Run Value} {body : Run Unit}
    (hcondition : FailsWithin Allowed condition) (hbody : FailsWithin Allowed body) (rounds : Nat) :
    FailsWithin Allowed (Run.repeatWhile condition body rounds) :=
  (sequential Allowed).repeatWhile hcondition hbody rounds

end FailsWithin

end Run

open Run (FailsWithin)

/-! ## Methods -/

namespace Method

/-- The errors of a call by a name at a place. -/
def CallError (name : String) (position : Position) (e : RuntimeError) : Prop :=
  e.position = position ∧ e.fault.OfCall name

/-- The faults that the application of a method can end in. -/
def CanFailWith (method : Method) : RuntimeFault → Prop
  | .unknownVariable _ => False
  | .unknownMethod _ => False
  | .argumentCount name _ _ => name = method.name
  | _ => True

variable {method : Method} {called : String} {position : Position} {Allowed : RuntimeError → Prop}

/-- What a method can fail with is a fault of a call. -/
theorem CanFailWith.ofCall {fault : RuntimeFault} (h : method.CanFailWith fault) :
    fault.OfCall called := by
  cases fault with
  | unknownVariable name => exact h.elim
  | unknownMethod name => exact h.elim
  | _ => trivial

/-- A text where a number is needed is the only fault of reading one off a value. -/
theorem toNumber_error {value : Value} {fault : RuntimeFault} (h : value.toNumber = .error fault) :
    fault = .expectedNumber := by
  cases value with
  | number value => cases h
  | text content =>
    cases h
    rfl

/-- A number where a text is needed is the only fault of reading one off a value. -/
theorem toText_error {value : Value} {fault : RuntimeFault} (h : value.toText = .error fault) :
    fault = .expectedText := by
  cases value with
  | number value =>
    cases h
    rfl
  | text content => cases h

/-- An operation fails because of an operand or by itself. -/
theorem arithmetic_error {operation : Number → Number → Except RuntimeFault Number}
    {left right : Value} {fault : RuntimeFault} (h : arithmetic operation left right = .error fault) :
    fault = .expectedNumber ∨ ∃ a b, operation a b = .error fault := by
  unfold arithmetic at h
  cases hleft : left.toNumber with
  | error fault' =>
    rw [hleft] at h
    cases h
    exact .inl (toNumber_error hleft)
  | ok a =>
    cases hright : right.toNumber with
    | error fault' =>
      rw [hleft, hright] at h
      cases h
      exact .inl (toNumber_error hright)
    | ok b =>
      cases hresult : operation a b with
      | error fault' =>
        rw [hleft, hright] at h
        simp only [bind, Except.bind, hresult] at h
        cases h
        exact .inr ⟨a, b, hresult⟩
      | ok value =>
        rw [hleft, hright] at h
        simp only [bind, Except.bind, hresult] at h
        cases h

/-- A method that computes fails in few ways: by its number of arguments, by an operand, or by a
division. -/
theorem compute_error {arguments : List Value} {fault : RuntimeFault}
    (h : method.compute arguments = .error fault) : method.CanFailWith fault := by
  unfold compute at h
  split at h
  case h_4 =>
    rcases arithmetic_error h with rfl | ⟨a, b, hdivide⟩
    · trivial
    · unfold divide at hdivide
      split at hdivide <;> cases hdivide
      trivial
  case h_1 | h_2 | h_3 =>
    rcases arithmetic_error h with rfl | ⟨_, _, hresult⟩
    · trivial
    · cases hresult
  all_goals
    cases h
    try exact rfl

/-- Asking fails where the streams do, or where the input is exhausted. -/
theorem askNumber_failsWithin (h : ∀ {fault}, method.CanFailWith fault → Allowed ⟨fault, position⟩)
    (prompt : String) (rounds : Nat) : FailsWithin Allowed (askNumber prompt position rounds) := by
  induction rounds with
  | zero => exact .fail (h trivial)
  | succ rounds ih =>
    have hconsole {α : Type} (action : Console α) :
        FailsWithin Allowed (Run.console position action) := .console fun _ => h trivial
    refine .bind (hconsole _) fun _ => .bind (hconsole _) ?_
    rintro (_ | line)
    · exact .fail (h trivial)
    · dsimp only
      split
      · exact .pure _
      · exact .bind (hconsole _) fun _ => ih

/-- Whatever goes wrong in a method is reported at the place of the call. -/
theorem apply_failsWithin (h : ∀ {fault}, method.CanFailWith fault → Allowed ⟨fault, position⟩)
    (values : List Value) : FailsWithin Allowed (method.apply values position) := by
  have hchecked : FailsWithin Allowed
      (Run.ofExcept position (checkArity method.name method.arity values.length)) := by
    refine .ofExcept fun fault hfault => h ?_
    unfold checkArity at hfault
    split at hfault <;> cases hfault
    exact rfl
  have htext (value : Value) : FailsWithin Allowed (Run.ofExcept position value.toText) := by
    refine .ofExcept fun fault hfault => h ?_
    cases toText_error hfault
    trivial
  unfold apply
  refine .bind hchecked fun _ => ?_
  split
  · refine .bind (htext _) fun prompt => .bind .get fun _ => ?_
    exact .bind (askNumber_failsWithin h prompt _) fun _ => .pure _
  · refine .bind (htext _) fun prompt => .bind ?_ fun _ => .pure _
    refine .bind (.console fun _ => h trivial) fun _ => ?_
    exact .bind (.console fun _ => h trivial) fun _ => .pure _
  · exact .ofExcept fun fault hfault => h (compute_error hfault)

/-- Every error of a call is placed at it, and names it or one of its faults. -/
theorem invoke_failsWithin (values : List Value) :
    FailsWithin (CallError called position) (invoke called values position) := by
  unfold invoke
  split
  · exact apply_failsWithin (fun hfault => ⟨rfl, hfault.ofCall⟩) values
  · exact .fail ⟨rfl, rfl⟩

end Method

/-! ## Programs -/

mutual
/-- An expression fails at the tokens that spell it. -/
theorem Expression.failsWithin : ∀ (value : Expression) {tokens : List Token},
    value.Spelled tokens → FailsWithin (BlamedIn tokens) value.evaluate
  | .number _ _, _, _ => .pure _
  | .text _ _, _, _ => .pure _
  | .reference start name, tokens, h => by
    obtain ⟨hkind, rfl, rfl⟩ := Expression.spelled_reference_iff.mp h
    exact .lookup ⟨0, start, rfl, rfl, hkind, rfl⟩
  | .call target, tokens, h => target.failsWithin h
/-- A call fails at its word `do`, or in its arguments. -/
theorem Call.failsWithin : ∀ (target : Call) {tokens : List Token},
    target.Spelled tokens → FailsWithin (BlamedIn tokens) target.evaluate
  | .mk start name arguments, tokens, h => by
    obtain ⟨hstart, called, joined, used, rest, hcalled, rfl, -, -, harguments, rfl⟩ :=
      Call.spelled_mk_iff.mp h
    refine .bind ((evaluateAll_failsWithin arguments harguments).mono ?_) fun values => ?_
    · exact fun he => he.of_part (List.suffix_append [start, called, joined, used] rest).isInfix
    · exact (Method.invoke_failsWithin values).mono fun he => .of_call hstart hcalled he.1 he.2
/-- Arguments fail at the tokens that spell them. -/
theorem evaluateAll_failsWithin : ∀ (arguments : List Expression) {tokens : List Token},
    ArgumentsSpelled arguments tokens → FailsWithin (BlamedIn tokens) (evaluateAll arguments)
  | [], _, _ => .pure _
  | [last], tokens, h => by
    refine .bind (last.failsWithin (argumentsSpelled_singleton_iff.mp h)) fun value => ?_
    exact .bind (.pure _) fun _ => .pure _
  | first :: second :: others, tokens, h => by
    obtain ⟨-, front, comma, back, hfirst, -, hothers, rfl⟩ := argumentsSpelled_cons_iff.mp h
    refine .bind ((first.failsWithin hfirst).mono ?_) fun value => ?_
    · exact fun he => he.of_part (List.prefix_append front _).isInfix
    · refine .bind ((evaluateAll_failsWithin (second :: others) hothers).mono ?_) fun _ => .pure _
      exact fun he => he.of_part ⟨front ++ [comma], [], by simp⟩
end

mutual
/-- A statement fails at the tokens that spell it. -/
theorem Statement.failsWithin (rounds : Nat) : ∀ (statement : Statement) {tokens : List Token},
    statement.Spelled tokens → FailsWithin (BlamedIn tokens) (statement.execute rounds)
  | .assignNumber _ _ _, _, _ => .assign _ _
  | .assignText _ _ _, _, _ => .assign _ _
  | .assignCall start name source, tokens, h => by
    obtain ⟨-, target, joined, rest, closed, -, -, -, hsource, -, rfl⟩ :=
      Statement.spelled_assignCall_iff.mp h
    refine .bind ((source.failsWithin hsource).mono ?_) fun value => .assign name value
    exact fun he => he.of_part ⟨[start, target, joined], [closed], by simp⟩
  | .say start value, tokens, h => by
    obtain ⟨hstart, front, closed, hvalue, -, rfl⟩ := Statement.spelled_say_iff.mp h
    refine .bind ((value.failsWithin hvalue).mono ?_) fun shown => .console fun fault => ?_
    · exact fun he => he.of_part ⟨[start], [closed], by simp⟩
    · exact ⟨0, start, rfl, rfl, .inl hstart⟩
  | .perform target, tokens, h => by
    obtain ⟨front, closed, htarget, -, rfl⟩ := Statement.spelled_perform_iff.mp h
    refine .bind ((target.failsWithin htarget).mono ?_) fun _ => .pure _
    exact fun he => he.of_part (List.prefix_append front _).isInfix
  | .group body, tokens, h => body.failsWithin rounds h
  | .ifThen start condition body, tokens, h => by
    obtain ⟨-, front, back, hcondition, hbody, rfl⟩ := Statement.spelled_ifThen_iff.mp h
    refine .bind ((condition.failsWithin hcondition).mono ?_) fun value => .ite ?_ (.pure _)
    · exact fun he => he.of_part ⟨[start], back, by simp⟩
    · refine (body.failsWithin rounds hbody).mono ?_
      exact fun he => he.of_part ⟨start :: front, [], by simp⟩
  | .ifElse start condition body alternative, tokens, h => by
    obtain ⟨-, front, middle, other, back, hcondition, hbody, -, halternative, rfl⟩ :=
      Statement.spelled_ifElse_iff.mp h
    refine .bind ((condition.failsWithin hcondition).mono ?_) fun value => .ite ?_ ?_
    · exact fun he => he.of_part ⟨[start], middle ++ other :: back, by simp⟩
    · refine (body.failsWithin rounds hbody).mono ?_
      exact fun he => he.of_part ⟨start :: front, other :: back, by simp⟩
    · refine (alternative.failsWithin rounds halternative).mono ?_
      exact fun he => he.of_part ⟨start :: (front ++ middle ++ [other]), [], by simp⟩
  | .whileLoop start condition body, tokens, h => by
    obtain ⟨-, front, back, hcondition, hbody, rfl⟩ := Statement.spelled_whileLoop_iff.mp h
    refine .repeatWhile ((condition.failsWithin hcondition).mono ?_)
      ((body.failsWithin rounds hbody).mono ?_) rounds
    · exact fun he => he.of_part ⟨[start], back, by simp⟩
    · exact fun he => he.of_part ⟨start :: front, [], by simp⟩
/-- A block fails at the tokens that spell it. -/
theorem Block.failsWithin (rounds : Nat) : ∀ (block : Block) {tokens : List Token},
    block.Spelled tokens → FailsWithin (BlamedIn tokens) (block.execute rounds)
  | .mk start statements, tokens, h => by
    obtain ⟨-, body, closed, hbody, -, rfl⟩ := Block.spelled_mk_iff.mp h
    refine (executeAll_failsWithin rounds statements hbody).mono ?_
    exact fun he => he.of_part ⟨[start], [closed], by simp⟩
/-- Statements fail at the tokens that spell them. -/
theorem executeAll_failsWithin (rounds : Nat) : ∀ (statements : List Statement)
    {tokens : List Token}, StatementsSpelled statements tokens →
      FailsWithin (BlamedIn tokens) (executeAll rounds statements)
  | [], _, _ => .pure _
  | first :: rest, tokens, h => by
    obtain ⟨front, back, hfirst, hrest, rfl⟩ := statementsSpelled_cons_iff.mp h
    refine .bind ((first.failsWithin rounds hfirst).mono ?_) fun _ => ?_
    · exact fun he => he.of_part (List.prefix_append front back).isInfix
    · refine (executeAll_failsWithin rounds rest hrest).mono ?_
      exact fun he => he.of_part (List.suffix_append front back).isInfix
end

/-! ## Sources -/

namespace Machine

open Lexer

/-- A program fails at the tokens it was read from. -/
theorem blamedIn_of_run {tokens : List Token} {program : Program} {m k : Machine} {rounds : Nat}
    {e : RuntimeError} (hprogram : parse tokens = .ok program)
    (hrun : m.run rounds program = (.failed (.runtime e), k)) : BlamedIn tokens e := by
  have hspelled := parse_eq_ok_iff.mp hprogram
  have hblamed := executeAll_failsWithin rounds program hspelled m k e (run_eq_failed.mp hrun)
  exact hblamed.of_part (List.takeWhile_prefix _).isInfix

/-- **A runtime error stands at what failed.** When the run of a source text ends in a runtime error,
the error stands at a token of this text: an unknown variable at its name, an unknown method at the
`do` before its name, every other fault of a method at the `do` of the call, and a fault of a stream at
the `say` or the `do` that used it. The place is the counted one of that very token: where the token is
the `i`-th of the text, it is the place behind everything before the `i`-th lexeme that is not
skipped. -/
theorem runtime_error_at_construct {source : String} {m k : Machine} {e : RuntimeError}
    (h : m.Ends source (.failed (.runtime e)) k) :
    ∃ (tokens : List Token) (i : Nat) (token : Token), tokenize source = .ok tokens ∧
      tokens[i]? = some token ∧ e.position = token.position ∧ e.fault.Blames token tokens[i + 1]? ∧
      ∃ (cuts : List Cut) (cut : Cut), Splits [] source.toList cuts [] ∧ (kept cuts)[i]? = some cut ∧
        cut.before ++ cut.lexeme <+: source.toList ∧ Lexeme cut.lexeme (some token.content) ∧
          e.position = placeAfter cut.before := by
  obtain ⟨-, rounds, hrun⟩ := h
  cases hsource : Program.ofSource source with
  | error failure =>
    rw [runSource, hsource] at hrun
    cases hrun
    unfold Program.ofSource at hsource
    split at hsource
    · cases hsource
    · split at hsource <;> cases hsource
  | ok program =>
    obtain ⟨tokens, htokens, hprogram⟩ := Program.ofSource_eq_ok.mp hsource
    rw [runSource_of_ok rounds m hsource] at hrun
    obtain ⟨i, token, htoken, hposition, hblames⟩ := blamedIn_of_run hprogram hrun
    obtain ⟨cuts, cut, hcuts, hkept, hfront, hlexeme, hplace⟩ :=
      exists_cut_of_getElem?_tokenize htokens htoken hblames.kind_ne_endOfInput
    exact ⟨tokens, i, token, htokens, htoken, hposition, hblames, cuts, cut, hcuts, hkept, hfront,
      hlexeme, hposition.trans hplace⟩

set_option maxRecDepth 4000 in
/-- Of two calls on the second line, the inner one has an unknown method, and its `do` is the place. -/
theorem runtime_error_of_unknown_method :
    let m := Machine.fresh ⟨.ofBytes [], .empty⟩
    let source := "\x7b\n do concat and use do no and use;\x7d"
    m.Ends source (.failed (.runtime ⟨.unknownMethod "no", ⟨2, 20⟩⟩)) m ∧
      ∃ (tokens : List Token) (i : Nat) (token : Token), tokenize source = .ok tokens ∧
        tokens[i]? = some token ∧ ⟨2, 20⟩ = token.position ∧ token.kind = .doWord ∧
          (∃ called, tokens[i + 1]? = some called ∧ called.kind = .identifier ∧
            called.text = "no") ∧
          ∃ (cuts : List Cut) (cut : Cut), Splits [] source.toList cuts [] ∧
            (kept cuts)[i]? = some cut ∧ cut.before ++ cut.lexeme <+: source.toList ∧
              Lexeme cut.lexeme (some token.content) ∧ ⟨2, 20⟩ = placeAfter cut.before := by
  intro m source
  have htokens : tokenize source = .ok [⟨.leftBrace, "\x7b", ⟨1, 1⟩⟩,
      ⟨.doWord, "do", ⟨2, 2⟩⟩, ⟨.identifier, "concat", ⟨2, 5⟩⟩, ⟨.andWord, "and", ⟨2, 12⟩⟩,
      ⟨.useWord, "use", ⟨2, 16⟩⟩, ⟨.doWord, "do", ⟨2, 20⟩⟩, ⟨.identifier, "no", ⟨2, 23⟩⟩,
      ⟨.andWord, "and", ⟨2, 26⟩⟩, ⟨.useWord, "use", ⟨2, 30⟩⟩, ⟨.semicolon, ";", ⟨2, 33⟩⟩,
      ⟨.rightBrace, "\x7d", ⟨2, 34⟩⟩, ⟨.endOfInput, "", ⟨2, 35⟩⟩] := by decide +kernel
  have hprogram : Program.ofSource source = .ok [.group (.mk ⟨.leftBrace, "\x7b", ⟨1, 1⟩⟩
      [.perform (.mk ⟨.doWord, "do", ⟨2, 2⟩⟩ "concat"
        [.call (.mk ⟨.doWord, "do", ⟨2, 20⟩⟩ "no" [])])])] :=
    Program.ofSource_eq_ok.mpr ⟨_, htokens, rfl⟩
  have hends : m.Ends source (.failed (.runtime ⟨.unknownMethod "no", ⟨2, 20⟩⟩)) m := by
    refine ⟨by decide, 0, ?_⟩
    rw [runSource_of_ok 0 m hprogram]
    rfl
  obtain ⟨tokens, i, token, htokens, htoken, hposition, hblames, hplace⟩ :=
    runtime_error_at_construct hends
  exact ⟨hends, tokens, i, token, htokens, htoken, hposition, hblames.1, hblames.2, hplace⟩

end Machine

end Parlance
