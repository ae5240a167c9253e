import Parlance.Proofs.Program.Completeness

/-!
# A comma belongs to the innermost call

The arguments of a call are read as far as commas go, at every depth. So no comma is left behind a call,
and a call that is an argument is the last one: the comma that another argument would need behind it is
one that the nested call has already taken.

`Program.calls` lists the calls of a program at any depth. The shape that reading gives to them is the
condition `callsLast` of the grammar, which is stated here of each call by itself
(`callsLast_iff_nestsLast`): nothing but its last argument is a call.
-/

namespace Parlance

/-! ## The calls of a program -/

mutual
/-- The calls within an expression, each before those in its arguments. -/
def Expression.calls : Expression → List Call
  | .number _ _ => []
  | .text _ _ => []
  | .reference _ _ => []
  | .call target => target.calls
/-- A call, and the calls in its arguments. -/
def Call.calls : Call → List Call
  | .mk start name arguments => .mk start name arguments :: argumentCalls arguments
/-- The calls within arguments. -/
def argumentCalls : List Expression → List Call
  | [] => []
  | first :: rest => first.calls ++ argumentCalls rest
end

mutual
/-- The calls within a statement, those of its blocks included. -/
def Statement.calls : Statement → List Call
  | .assignNumber _ _ _ => []
  | .assignText _ _ _ => []
  | .assignCall _ _ source => source.calls
  | .say _ value => value.calls
  | .perform target => target.calls
  | .group body => body.calls
  | .ifThen _ condition body => condition.calls ++ body.calls
  | .ifElse _ condition body alternative => condition.calls ++ body.calls ++ alternative.calls
  | .whileLoop _ condition body => condition.calls ++ body.calls
/-- The calls within a block. -/
def Block.calls : Block → List Call
  | .mk _ statements => statementCalls statements
/-- The calls within statements. -/
def statementCalls : List Statement → List Call
  | [] => []
  | first :: rest => first.calls ++ statementCalls rest
end

/-- The calls of a program. -/
def Program.calls (program : Program) : List Call := statementCalls program

/-! ## The shape of a call -/

/-- No argument of a call but the last is a call. -/
def Call.NestsLast (target : Call) : Prop :=
  ∀ argument ∈ target.arguments.dropLast, argument.isCall = false

/-- What is no call is a literal or the value of a variable. -/
theorem Expression.isCall_eq_false_iff {value : Expression} :
    value.isCall = false ↔ (∃ start number, value = .number start number) ∨
      (∃ start content, value = .text start content) ∨ ∃ start name, value = .reference start name := by
  cases value <;> simp [Expression.isCall]

/-- There are no calls within an expression that is none. -/
theorem Expression.calls_of_not_isCall {value : Expression} (h : value.isCall = false) :
    value.calls = [] := by
  cases value with
  | call target => cases h
  | _ => rfl

mutual
/-- The computed test says of an expression what is said of each call in it. -/
theorem Expression.callsLast_iff_nestsLast : ∀ value : Expression,
    value.callsLast = true ↔ ∀ target ∈ value.calls, target.NestsLast
  | .number _ _ => by simp [Expression.callsLast, Expression.calls]
  | .text _ _ => by simp [Expression.callsLast, Expression.calls]
  | .reference _ _ => by simp [Expression.callsLast, Expression.calls]
  | .call target => target.callsLast_iff_nestsLast
theorem Call.callsLast_iff_nestsLast : ∀ target : Call,
    target.callsLast = true ↔ ∀ inner ∈ target.calls, inner.NestsLast
  | .mk start name arguments => by
    rw [Call.callsLast, arguments_callsLast_iff arguments, Call.calls, List.forall_mem_cons]
    rfl
/-- Of arguments, the last may be a call, and the calls within it have the same shape. -/
theorem arguments_callsLast_iff : ∀ arguments : List Expression,
    argumentsCallsLast arguments = true ↔
      (∀ argument ∈ arguments.dropLast, argument.isCall = false) ∧
        ∀ target ∈ argumentCalls arguments, target.NestsLast
  | [] => by simp [argumentsCallsLast, argumentCalls]
  | [last] => by
    rw [argumentsCallsLast, last.callsLast_iff_nestsLast]
    simp [argumentCalls]
  | first :: second :: others => by
    rw [argumentsCallsLast, Bool.and_eq_true_iff, arguments_callsLast_iff (second :: others),
      List.dropLast_cons_cons, List.forall_mem_cons, and_assoc, Bool.not_eq_true']
    refine and_congr_right fun hfirst => and_congr_right fun _ => ?_
    have hcalls : argumentCalls (first :: second :: others) = argumentCalls (second :: others) := by
      rw [argumentCalls, Expression.calls_of_not_isCall hfirst, List.nil_append]
    rw [hcalls]
end

mutual
/-- The computed test says of a statement what is said of each call in it. -/
theorem Statement.callsLast_iff_nestsLast : ∀ statement : Statement,
    statement.callsLast = true ↔ ∀ target ∈ statement.calls, target.NestsLast
  | .assignNumber _ _ _ => by simp [Statement.callsLast, Statement.calls]
  | .assignText _ _ _ => by simp [Statement.callsLast, Statement.calls]
  | .assignCall _ _ source => source.callsLast_iff_nestsLast
  | .say _ value => value.callsLast_iff_nestsLast
  | .perform target => target.callsLast_iff_nestsLast
  | .group body => body.callsLast_iff_nestsLast
  | .ifThen _ condition body => by
    rw [Statement.callsLast, Bool.and_eq_true_iff, condition.callsLast_iff_nestsLast,
      body.callsLast_iff_nestsLast, Statement.calls, List.forall_mem_append]
  | .ifElse _ condition body alternative => by
    rw [Statement.callsLast, Bool.and_eq_true_iff, Bool.and_eq_true_iff,
      condition.callsLast_iff_nestsLast, body.callsLast_iff_nestsLast,
      alternative.callsLast_iff_nestsLast, Statement.calls, List.forall_mem_append,
      List.forall_mem_append]
  | .whileLoop _ condition body => by
    rw [Statement.callsLast, Bool.and_eq_true_iff, condition.callsLast_iff_nestsLast,
      body.callsLast_iff_nestsLast, Statement.calls, List.forall_mem_append]
theorem Block.callsLast_iff_nestsLast : ∀ block : Block,
    block.callsLast = true ↔ ∀ target ∈ block.calls, target.NestsLast
  | .mk _ statements => statements_callsLast_iff_nestsLast statements
/-- The computed test says of a program what is said of each call in it. -/
theorem statements_callsLast_iff_nestsLast : ∀ statements : List Statement,
    statementsCallsLast statements = true ↔ ∀ target ∈ statementCalls statements, target.NestsLast
  | [] => by simp [statementsCallsLast, statementCalls]
  | first :: rest => by
    rw [statementsCallsLast, Bool.and_eq_true_iff, first.callsLast_iff_nestsLast,
      statements_callsLast_iff_nestsLast rest, statementCalls, List.forall_mem_append]
end

/-! ## What stands behind a call -/

namespace Reader

variable {c k : Cursor}

/-- Behind a call that was read, no comma is next. -/
theorem call_leaves_comma {target : Call} (h : call c = .ok target k) : k.check .comma = false := by
  have hread : callWith (arguments c.ahead.length) c = .ok target k := h
  exact callWith_leaves_comma hread

/-- Behind an expression that is a call, no comma is next. -/
theorem expression_leaves_comma {target : Call} (h : expression c = .ok (.call target) k) :
    k.check .comma = false := by
  have hread : expressionWith (arguments c.ahead.length) c = .ok (.call target) k := h
  cases hcomma : k.check .comma with
  | false => rfl
  | true => cases isCall_of_comma hread hcomma

end Reader

/-- **A comma belongs to the innermost call.** In every call of a program that was read, at any depth,
each argument but the last is a literal or the value of a variable. And whatever tokens are ahead, behind
a call that was read, as a call or as an expression, there is no comma. -/
theorem comma_belongs_to_innermost_call :
    (∀ (tokens : List Token) (program : Program), parse tokens = .ok program →
      ∀ target ∈ program.calls, ∀ argument ∈ target.arguments.dropLast,
        (∃ start number, argument = .number start number) ∨
          (∃ start content, argument = .text start content) ∨
            ∃ start name, argument = .reference start name) ∧
    (∀ (c k : Cursor) (target : Call), Reader.call c = .ok target k → k.peek.kind ≠ .comma) ∧
    ∀ (c k : Cursor) (target : Call), Reader.expression c = .ok (.call target) k →
      k.peek.kind ≠ .comma := by
  refine ⟨fun tokens program h target htarget argument hargument => ?_, fun c k target h => ?_,
    fun c k target h => ?_⟩
  · have hcalls : statementsCallsLast program = true := (parse_eq_ok_iff.mp h).1
    have hnests := (statements_callsLast_iff_nestsLast program).mp hcalls target htarget
    exact Expression.isCall_eq_false_iff.mp (hnests argument hargument)
  · exact fun hkind => Bool.eq_false_iff.mp (Reader.call_leaves_comma h) (Cursor.check_iff.mpr hkind)
  · exact fun hkind =>
      Bool.eq_false_iff.mp (Reader.expression_leaves_comma h) (Cursor.check_iff.mpr hkind)

/-- The nested call takes the arguments behind it: the outer one is left with a variable and this call,
and behind it stands the semicolon. -/
theorem comma_belongs_to_nested_call :
    let tokens : List Token :=
      [⟨.doWord, "do", ⟨1, 1⟩⟩, ⟨.identifier, "f", ⟨1, 4⟩⟩, ⟨.andWord, "and", ⟨1, 6⟩⟩,
       ⟨.useWord, "use", ⟨1, 10⟩⟩, ⟨.identifier, "x", ⟨1, 14⟩⟩, ⟨.comma, ",", ⟨1, 15⟩⟩,
       ⟨.doWord, "do", ⟨1, 17⟩⟩, ⟨.identifier, "g", ⟨1, 20⟩⟩, ⟨.andWord, "and", ⟨1, 22⟩⟩,
       ⟨.useWord, "use", ⟨1, 26⟩⟩, ⟨.identifier, "y", ⟨1, 30⟩⟩, ⟨.comma, ",", ⟨1, 31⟩⟩,
       ⟨.identifier, "z", ⟨1, 33⟩⟩, ⟨.semicolon, ";", ⟨1, 34⟩⟩]
    ∃ (program : Program) (target : Call) (k : Cursor), parse tokens = .ok program ∧
      Reader.call (Cursor.ofTokens tokens) = .ok target k ∧
      program.calls.map Call.name = ["f", "g"] ∧ target ∈ program.calls ∧
      target.arguments.length = 2 ∧
      (∀ argument ∈ target.arguments.dropLast,
        (∃ start number, argument = .number start number) ∨
          (∃ start content, argument = .text start content) ∨
            ∃ start name, argument = .reference start name) ∧
      k.peek.kind ≠ .comma := by
  intro tokens
  obtain ⟨hcalls, hbehind, -⟩ := comma_belongs_to_innermost_call
  exact ⟨_, _, _, rfl, rfl, rfl, List.mem_cons_self, rfl,
    hcalls tokens _ rfl _ List.mem_cons_self, hbehind (Cursor.ofTokens tokens) _ _ rfl⟩

end Parlance
