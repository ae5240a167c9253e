import Parlance.Proofs.Program.CorrectPrefix

/-!
# Programs on moved tokens

A token says what it is and where it stands, and only the first of the two decides how it is read.
`relocate` moves every place in a token, a tree or an error; `parse_relocate` says that reading moved
tokens is moving what is read, be it a program or an error, for every way to move places.

A move that forgets places compares two layouts of the same tokens, and a move by some lines puts a
text below another one. `Relocates` is the same law for a single reader; it is kept by sequences, so
each reader has it by the shape of its definition.
-/

namespace Parlance

/-! ## Moved tokens, trees and errors -/

/-- An error at another place. -/
def Located.relocate {Fault : Type} (move : Position → Position) (error : Located Fault) :
    Located Fault :=
  { error with position := move error.position }

/-- A token at another place. -/
def Token.relocate (move : Position → Position) (token : Token) : Token :=
  { token with position := move token.position }

mutual
/-- An expression whose tokens stand at other places. -/
def Expression.relocate (move : Position → Position) : Expression → Expression
  | .number start value => .number (start.relocate move) value
  | .text start content => .text (start.relocate move) content
  | .reference start name => .reference (start.relocate move) name
  | .call target => .call (target.relocate move)
/-- A call whose tokens stand at other places. -/
def Call.relocate (move : Position → Position) : Call → Call
  | .mk start name arguments =>
    .mk (start.relocate move) name (relocateArguments move arguments)
/-- Arguments whose tokens stand at other places. -/
def relocateArguments (move : Position → Position) : List Expression → List Expression
  | [] => []
  | first :: others => first.relocate move :: relocateArguments move others
end

mutual
/-- A statement whose tokens stand at other places. -/
def Statement.relocate (move : Position → Position) : Statement → Statement
  | .assignNumber start name value => .assignNumber (start.relocate move) name value
  | .assignText start name content => .assignText (start.relocate move) name content
  | .assignCall start name source =>
    .assignCall (start.relocate move) name (source.relocate move)
  | .say start value => .say (start.relocate move) (value.relocate move)
  | .perform target => .perform (target.relocate move)
  | .group body => .group (body.relocate move)
  | .ifThen start condition body =>
    .ifThen (start.relocate move) (condition.relocate move) (body.relocate move)
  | .ifElse start condition body alternative =>
    .ifElse (start.relocate move) (condition.relocate move) (body.relocate move)
      (alternative.relocate move)
  | .whileLoop start condition body =>
    .whileLoop (start.relocate move) (condition.relocate move) (body.relocate move)
/-- A block whose tokens stand at other places. -/
def Block.relocate (move : Position → Position) : Block → Block
  | .mk start statements => .mk (start.relocate move) (relocateStatements move statements)
/-- Statements whose tokens stand at other places. -/
def relocateStatements (move : Position → Position) : List Statement → List Statement
  | [] => []
  | first :: others => first.relocate move :: relocateStatements move others
end

/-- A program whose tokens stand at other places. -/
def Program.relocate (move : Position → Position) (program : Program) : Program :=
  relocateStatements move program

/-- What a list of tokens is read as, with its places moved. -/
def relocateParse (move : Position → Position) :
    Except SyntaxError Program → Except SyntaxError Program
  | .ok program => .ok (program.relocate move)
  | .error e => .error (e.relocate move)

/-- A moved token is of the same kind. -/
@[simp] theorem Token.kind_relocate (move : Position → Position) (token : Token) :
    (token.relocate move).kind = token.kind := rfl

/-- A moved token is quoted in the same words. -/
@[simp] theorem Token.description_relocate (move : Position → Position) (token : Token) :
    (token.relocate move).description = token.description := rfl

/-! ## Moved cursors -/

namespace Cursor

variable {move : Position → Position}

/-- A cursor before moved tokens. -/
def relocate (move : Position → Position) (cursor : Cursor) : Cursor where
  ahead := cursor.ahead.map (Token.relocate move)
  finish := cursor.finish.relocate move
  finish_kind := cursor.finish_kind

/-- Before moved tokens, the next one is moved. -/
theorem peek_relocate (c : Cursor) : (c.relocate move).peek = c.peek.relocate move := by
  obtain ⟨_ | ⟨token, tokens⟩, finish, hfinish⟩ := c <;> rfl

/-- Moved tokens are over where the tokens are. -/
theorem isAtEnd_relocate (c : Cursor) : (c.relocate move).isAtEnd = c.isAtEnd :=
  List.isEmpty_map

/-- A test of the next token does not ask where it stands. -/
theorem check_relocate (c : Cursor) (kind : TokenKind) :
    (c.relocate move).check kind = c.check kind := by
  rw [check, peek_relocate]
  rfl

/-- The next of the moved tokens is consumed with the next of the tokens. -/
theorem advance_relocate (c : Cursor) : (c.relocate move).advance = c.advance.relocate move := by
  obtain ⟨_ | ⟨token, tokens⟩, finish, hfinish⟩ := c <;> rfl

theorem length_ahead_relocate (c : Cursor) : (c.relocate move).ahead.length = c.ahead.length :=
  List.length_map _

/-- In a list that is not empty, the end of the input is moved too, be it made up or not. -/
theorem ofTokens_relocate {tokens : List Token} (h : tokens ≠ []) :
    ofTokens (tokens.map (Token.relocate move)) = (ofTokens tokens).relocate move := by
  have hkinds : ((fun token : Token => token.kind != .endOfInput) ∘ Token.relocate move) =
      fun token => token.kind != .endOfInput := rfl
  have hends : ((fun token : Token => token.kind == .endOfInput) ∘ Token.relocate move) =
      fun token => token.kind == .endOfInput := rfl
  have hlast : ∃ last, tokens.getLast? = some last := ⟨_, List.getLast?_eq_some_getLast h⟩
  obtain ⟨last, hlast⟩ := hlast
  simp only [ofTokens, relocate, mk.injEq]
  constructor
  · rw [List.takeWhile_map, hkinds]
  · rw [List.find?_map, hends, syntheticEnd, syntheticEnd, List.getLast?_map, hlast]
    cases tokens.find? fun token => token.kind == .endOfInput <;> rfl

end Cursor

/-! ## Readers -/

namespace Reader

variable {α β : Type} {move : Position → Position}

/-- An outcome on moved tokens, given how its value is moved. -/
def relocateOutcome (move : Position → Position) (carry : α → α) : Outcome α → Outcome α
  | .ok v k => .ok (carry v) (k.relocate move)
  | .error e k => .error (e.relocate move) (k.relocate move)

/-- The second reader gives on moved tokens what the first one gives, moved. -/
def Relocates (move : Position → Position) (carry : α → α) (r s : Reader α) : Prop :=
  ∀ c : Cursor, s (c.relocate move) = relocateOutcome move carry (r c)

namespace Relocates

variable {carry : α → α} {carry' : β → β}

/-- A value that is at hand has to be the moved one on the other side. -/
theorem pure {v w : α} (h : w = carry v) :
    Relocates move carry (Pure.pure v) (Pure.pure w) := by
  intro c
  rw [h]
  rfl

/-- An error at a given place is placed where this place is moved to. -/
theorem throw {fault : SyntaxFault} {position : Position} :
    Relocates move carry (throw ⟨fault, position⟩) (throw ⟨fault, move position⟩) :=
  fun _ => rfl

/-- The second part of a sequence is given the moved value of the first. -/
theorem bind {r s : Reader α} {f g : α → Reader β} (hr : Relocates move carry r s)
    (hf : ∀ v, Relocates move carry' (f v) (g (carry v))) :
    Relocates move carry' (r >>= f) (s >>= g) := by
  intro c
  rw [bind_apply, bind_apply, hr c]
  cases r c with
  | ok v k => exact hf v k
  | error e k => rfl

theorem ite {p : Prop} [Decidable p] {r r' s s' : Reader α} (hr : Relocates move carry r r')
    (hs : Relocates move carry s s') :
    Relocates move carry (if p then r else s) (if p then r' else s') := by
  split
  · exact hr
  · exact hs

theorem peek : Relocates move (Token.relocate move) Reader.peek Reader.peek := by
  intro c
  rw [peek_apply, peek_apply, Cursor.peek_relocate]
  rfl

/-- Whether the input is over does not depend on places. -/
theorem isAtEnd : Relocates move id Reader.isAtEnd Reader.isAtEnd := by
  intro c
  rw [isAtEnd_apply, isAtEnd_apply, Cursor.isAtEnd_relocate]
  rfl

theorem check {kind : TokenKind} : Relocates move id (Reader.check kind) (Reader.check kind) := by
  intro c
  rw [check_apply, check_apply, Cursor.check_relocate]
  rfl

/-- The token that is consumed is moved. -/
theorem advance : Relocates move (Token.relocate move) Reader.advance Reader.advance := by
  intro c
  rw [advance_apply, advance_apply, Cursor.peek_relocate, Cursor.advance_relocate]
  rfl

/-- Bounds are the same on both sides. -/
theorem remaining : Relocates move id Reader.remaining Reader.remaining := by
  intro c
  show EStateM.Result.ok (c.relocate move).ahead.length _ = _
  rw [Cursor.length_ahead_relocate]
  rfl

/-- An error at the next token moves with it. -/
theorem failHere {fault : SyntaxFault} :
    Relocates move carry (Reader.failHere fault) (Reader.failHere fault) := by
  intro c
  rw [failHere_apply, failHere_apply, Cursor.peek_relocate]
  rfl

/-- The number that a token stands for is read from its text. -/
theorem numberOf {token : Token} :
    Relocates move id (Reader.numberOf token) (Reader.numberOf (token.relocate move)) := by
  intro c
  rw [numberOf_apply, numberOf_apply]
  have htext : (token.relocate move).text = token.text := rfl
  rw [htext]
  cases Number.read? token.text <;> rfl

/-- A required token is found on both sides or on neither, and then the error moves. -/
theorem expect {kind : TokenKind} {message : String} :
    Relocates move (Token.relocate move) (Reader.expect kind message)
      (Reader.expect kind message) :=
  bind check fun _ => ite advance failHere

theorem expectSemicolon {context : String} :
    Relocates move id (Reader.expectSemicolon context) (Reader.expectSemicolon context) :=
  bind check fun _ => ite (bind advance fun _ => pure rfl) failHere

/-- An optional token is taken from the moved tokens where it is taken from the others. -/
theorem accept?_bind {kind : TokenKind} {f g : Option Token → Reader β}
    (hsome : ∀ t, Relocates move carry' (f (some t)) (g (some (t.relocate move))))
    (hnone : Relocates move carry' (f none) (g none)) :
    Relocates move carry' (accept? kind >>= f) (accept? kind >>= g) := by
  intro c
  cases hcheck : c.check kind with
  | false =>
    rw [accept?_bind_of_not_check ((c.check_relocate kind).trans hcheck),
      accept?_bind_of_not_check hcheck]
    exact hnone c
  | true =>
    rw [accept?_bind_of_check ((c.check_relocate kind).trans hcheck),
      accept?_bind_of_check hcheck, Cursor.peek_relocate, Cursor.advance_relocate]
    exact hsome c.peek c.advance

/-! ### The readers of the language -/

/-- A call keeps its first token, which is moved, and its name. -/
theorem callWith {arguments : Reader (List Expression)}
    (h : Relocates move (relocateArguments move) arguments arguments) :
    Relocates move (Call.relocate move) (Reader.callWith arguments)
      (Reader.callWith arguments) := by
  refine bind expect fun start => bind expect fun name => bind expect fun _ => ?_
  refine bind expect fun _ => bind peek fun next => ?_
  exact ite (pure rfl) (bind h fun _ => pure rfl)

/-- The first token decides the expression, and its place has no part in that. -/
theorem expressionWith {arguments : Reader (List Expression)}
    (h : Relocates move (relocateArguments move) arguments arguments) :
    Relocates move (Expression.relocate move) (Reader.expressionWith arguments)
      (Reader.expressionWith arguments) := by
  refine bind peek ?_
  intro next
  rw [Token.kind_relocate, Token.description_relocate]
  split
  · exact bind advance fun _ => bind numberOf fun _ => pure rfl
  · exact bind advance fun _ => pure rfl
  · exact bind advance fun _ => pure rfl
  · exact bind (callWith h) fun _ => pure rfl
  · exact failHere

/-- Arguments are moved one by one. -/
theorem arguments : ∀ bound : Nat, Relocates move (relocateArguments move)
    (Reader.arguments bound) (Reader.arguments bound)
  | 0 => bind peek fun _ => failHere
  | bound + 1 => by
    refine bind (expressionWith (arguments bound)) fun first => accept?_bind (fun _ => ?_) ?_
    · exact bind (arguments bound) fun _ => pure rfl
    · exact pure rfl

/-- A block keeps its opening brace, which is moved. -/
theorem blockWith {statements : Reader (List Statement)}
    (h : Relocates move (relocateStatements move) statements statements) :
    Relocates move (Block.relocate move) (Reader.blockWith statements)
      (Reader.blockWith statements) :=
  bind advance fun _ => bind h fun _ => accept?_bind (fun _ => pure rfl) failHere

/-- A missing block is reported where the moved token stands. -/
theorem requiredBlockWith {statements : Reader (List Statement)}
    (h : Relocates move (relocateStatements move) statements statements) (keyword : String) :
    Relocates move (Block.relocate move) (Reader.requiredBlockWith statements keyword)
      (Reader.requiredBlockWith statements keyword) :=
  bind check fun _ => ite (blockWith h) failHere

/-- A name without a value is reported at the name itself, which is moved. -/
theorem assignment : Relocates move (Statement.relocate move) Reader.assignment
    Reader.assignment := by
  refine bind expect fun name => accept?_bind (fun _ => ?_) (accept?_bind (fun _ => ?_) throw)
  · refine bind expect fun _ => bind expect fun literal => bind numberOf fun value => ?_
    exact bind expectSemicolon fun _ => pure rfl
  · exact bind expect fun literal => bind expectSemicolon fun _ => pure rfl

/-- A `set` keeps its first token and its name. -/
theorem setFromCall {call : Reader Call} (h : Relocates move (Call.relocate move) call call) :
    Relocates move (Statement.relocate move) (Reader.setFromCall call)
      (Reader.setFromCall call) := by
  refine bind expect fun start => bind expect fun name => bind expect fun _ => ?_
  refine bind check fun _ => ite ?_ failHere
  exact bind h fun _ => bind expectSemicolon fun _ => pure rfl

/-- Both blocks of a condition are moved, or the only one. -/
theorem condition {expression : Reader Expression} {block : String → Reader Block}
    (hexpression : Relocates move (Expression.relocate move) expression expression)
    (hblock : ∀ keyword, Relocates move (Block.relocate move) (block keyword) (block keyword)) :
    Relocates move (Statement.relocate move) (Reader.condition expression block)
      (Reader.condition expression block) := by
  refine bind expect fun start => bind hexpression fun asked => bind (hblock _) fun body => ?_
  refine accept?_bind (fun _ => ?_) (pure rfl)
  exact bind (hblock _) fun _ => pure rfl

/-- The first token decides the construct, and its place has no part in that. -/
theorem statementWith {statements : Reader (List Statement)}
    (h : Relocates move (relocateStatements move) statements statements) (bound : Nat) :
    Relocates move (Statement.relocate move) (Reader.statementWith bound statements)
      (Reader.statementWith bound statements) := by
  have call : Relocates move _ _ _ := callWith (arguments bound)
  have expression : Relocates move _ _ _ := expressionWith (arguments bound)
  refine bind peek ?_
  intro next
  rw [Token.kind_relocate, Token.description_relocate]
  split
  · exact bind (blockWith h) fun _ => pure rfl
  · exact bind advance fun _ => bind expression fun _ => bind expectSemicolon fun _ => pure rfl
  · exact bind call fun _ => bind expectSemicolon fun _ => pure rfl
  · exact setFromCall call
  · exact condition expression (requiredBlockWith h)
  · exact bind expect fun _ => bind expression fun _ =>
      bind (requiredBlockWith h _) fun _ => pure rfl
  · exact assignment
  · exact failHere

/-- Statements are moved one by one. -/
theorem statements : ∀ bound : Nat, Relocates move (relocateStatements move)
    (Reader.statements bound) (Reader.statements bound)
  | 0 => pure rfl
  | bound + 1 => by
    refine bind isAtEnd fun _ => bind check fun _ => ite (pure rfl) ?_
    refine bind (statementWith (statements bound) bound) fun first => ?_
    exact bind (statements bound) fun _ => pure rfl

/-- A whole program is moved, or the error that is found instead. -/
theorem program : Relocates move (Program.relocate move) Reader.program Reader.program := by
  refine bind remaining fun bound => bind (statements bound) fun body => ?_
  exact bind isAtEnd fun _ => ite (pure rfl) (bind peek fun _ => failHere)

end Relocates

end Reader

/-! ## Lists of tokens -/

open Reader

variable {move : Position → Position} {tokens : List Token}

/-- The end of the input is among the moved tokens, unless there are none at all. -/
theorem program_relocate (h : tokens ≠ []) :
    program (Cursor.ofTokens (tokens.map (Token.relocate move))) =
      relocateOutcome move (Program.relocate move) (program (Cursor.ofTokens tokens)) := by
  rw [Cursor.ofTokens_relocate h]
  exact Relocates.program _

/-- Reading moved tokens is moving what is read. -/
theorem parse_relocate (h : tokens ≠ []) :
    parse (tokens.map (Token.relocate move)) = relocateParse move (parse tokens) := by
  unfold parse
  rw [program_relocate h]
  cases program (Cursor.ofTokens tokens) <;> rfl

/-- Where reading stops does not depend on places. -/
theorem tokensConsumed_relocate (h : tokens ≠ []) :
    tokensConsumed (tokens.map (Token.relocate move)) = tokensConsumed tokens := by
  have hleft : ∀ outcome : Reader.Outcome Program,
      (left (relocateOutcome move (Program.relocate move) outcome)).ahead.length =
        (left outcome).ahead.length := by
    intro outcome
    cases outcome <;> exact Cursor.length_ahead_relocate _
  rw [tokensConsumed, tokensConsumed, program_relocate h, hleft, Cursor.ofTokens_relocate h,
    Cursor.length_ahead_relocate]

end Parlance
