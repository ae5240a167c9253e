import Parlance.Program.Parser
import Parlance.Proofs.Sequencing

/-!
# Readers, one step at a time

Every law about reading tokens compares two cursors: where a reader began and where it stopped.
`Cursor.prepend` says how they lie: the first is the second with the consumed tokens put back before
it, and the end of the input is the same. The reading primitives are stated here as equations at a
cursor, and a sequence of readers is opened by `bind_eq_ok` and `bind_eq_error`, so that no later
module unfolds the run monad.
-/

namespace Parlance

namespace Cursor

/-- A cursor with tokens put before what is ahead of it. -/
def prepend (cursor : Cursor) (tokens : List Token) : Cursor :=
  { cursor with ahead := tokens ++ cursor.ahead }

@[simp] theorem prepend_nil (cursor : Cursor) : cursor.prepend [] = cursor := rfl

@[simp] theorem ahead_prepend (cursor : Cursor) (tokens : List Token) :
    (cursor.prepend tokens).ahead = tokens ++ cursor.ahead := rfl

@[simp] theorem finish_prepend (cursor : Cursor) (tokens : List Token) :
    (cursor.prepend tokens).finish = cursor.finish := rfl

/-- Tokens can be put back in two steps, those nearer to the cursor first. -/
theorem prepend_append (cursor : Cursor) (first second : List Token) :
    cursor.prepend (first ++ second) = (cursor.prepend second).prepend first := by
  simp only [prepend, List.append_assoc]

/-- A cursor tells which tokens were put before another. -/
theorem prepend_inj {cursor : Cursor} {first second : List Token} :
    cursor.prepend first = cursor.prepend second ↔ first = second := by
  constructor
  · intro h
    simpa using congrArg Cursor.ahead h
  · rintro rfl
    rfl

/-- Behind the same tokens, different cursors stay different. -/
theorem eq_of_prepend_eq {first second : Cursor} {tokens : List Token}
    (h : first.prepend tokens = second.prepend tokens) : first = second := by
  obtain ⟨ahead, finish, hfinish⟩ := first
  obtain ⟨ahead', finish', hfinish'⟩ := second
  simp only [prepend, mk.injEq, List.append_cancel_left_eq] at h
  obtain ⟨rfl, rfl⟩ := h
  rfl

@[simp] theorem peek_prepend_cons (cursor : Cursor) (token : Token) (tokens : List Token) :
    (cursor.prepend (token :: tokens)).peek = token := rfl

@[simp] theorem check_prepend_cons (cursor : Cursor) (token : Token) (tokens : List Token)
    (kind : TokenKind) : (cursor.prepend (token :: tokens)).check kind = (token.kind == kind) := rfl

@[simp] theorem isAtEnd_prepend_cons (cursor : Cursor) (token : Token) (tokens : List Token) :
    (cursor.prepend (token :: tokens)).isAtEnd = false := rfl

@[simp] theorem advance_prepend_cons (cursor : Cursor) (token : Token) (tokens : List Token) :
    (cursor.prepend (token :: tokens)).advance = cursor.prepend tokens := rfl

/-- Before a token of the input, a cursor is the next one with that token put back. -/
theorem advance_prepend_peek {cursor : Cursor} (h : cursor.isAtEnd = false) :
    cursor.advance.prepend [cursor.peek] = cursor := by
  obtain ⟨_ | ⟨token, tokens⟩, finish, hfinish⟩ := cursor
  · simp [isAtEnd] at h
  · rfl

/-- The test of a kind is an equation between kinds. -/
theorem check_iff {cursor : Cursor} {kind : TokenKind} :
    cursor.check kind = true ↔ cursor.peek.kind = kind := by
  simp [check]

/-- Where everything is read, the end of the input is next. -/
theorem peek_kind_of_isAtEnd {cursor : Cursor} (h : cursor.isAtEnd = true) :
    cursor.peek.kind = .endOfInput := by
  obtain ⟨_ | ⟨token, tokens⟩, finish, hfinish⟩ := cursor
  · exact hfinish
  · simp [isAtEnd] at h

/-- Only the end of the input has its kind, so a token of another kind is one of the input. -/
theorem isAtEnd_of_check {cursor : Cursor} {kind : TokenKind} (hkind : kind ≠ .endOfInput)
    (h : cursor.check kind = true) : cursor.isAtEnd = false := by
  cases hend : cursor.isAtEnd with
  | false => rfl
  | true => exact absurd ((check_iff.mp h).symm.trans (peek_kind_of_isAtEnd hend)) hkind

end Cursor

namespace Reader

variable {α β : Type}

/-! ## Primitives at a cursor -/

theorem peek_apply (c : Cursor) : peek c = .ok c.peek c := rfl

theorem check_apply (kind : TokenKind) (c : Cursor) : check kind c = .ok (c.check kind) c := rfl

theorem isAtEnd_apply (c : Cursor) : isAtEnd c = .ok c.isAtEnd c := rfl

/-- The next token is given, and the cursor stands behind it. -/
theorem advance_apply (c : Cursor) : advance c = .ok c.peek c.advance := rfl

/-- A failure here leaves the cursor before the token that it is placed at. -/
theorem failHere_apply (fault : SyntaxFault) (c : Cursor) :
    (failHere fault : Reader α) c = .error ⟨fault, c.peek.position⟩ c := rfl

theorem throw_apply (e : SyntaxError) (c : Cursor) : (throw e : Reader α) c = .error e c := rfl

/-- An optional token is consumed where it stands, and otherwise nothing is. -/
theorem accept?_apply (kind : TokenKind) (c : Cursor) :
    accept? kind c = if c.check kind then .ok (some c.peek) c.advance else .ok none c := by
  show (match check kind c with
    | .ok b k => (if b = true then _ else _ : Reader (Option Token)) k
    | .error e k => .error e k) = _
  rw [check_apply]
  cases c.check kind <;> rfl

/-- A required token is consumed, or the next one is reported in its place. -/
theorem expect_apply (kind : TokenKind) (message : String) (c : Cursor) :
    expect kind message c =
      if c.check kind then .ok c.peek c.advance
      else .error ⟨.expected message, c.peek.position⟩ c := by
  show (match check kind c with
    | .ok b k => (if b = true then _ else _ : Reader Token) k
    | .error e k => .error e k) = _
  rw [check_apply]
  cases c.check kind <;> rfl

/-- A missing semicolon is reported at the token that stands in its place. -/
theorem expectSemicolon_apply (context : String) (c : Cursor) :
    expectSemicolon context c =
      if c.check .semicolon then .ok () c.advance
      else .error ⟨.missingSemicolon context, c.peek.position⟩ c := by
  show (match check .semicolon c with
    | .ok b k => (if b = true then _ else _ : Reader Unit) k
    | .error e k => .error e k) = _
  rw [check_apply]
  cases c.check .semicolon <;> rfl

/-- A number token is judged without a move of the cursor, and blamed at its own place. -/
theorem numberOf_apply (token : Token) (c : Cursor) :
    numberOf token c = match Number.read? token.text with
      | some value => .ok value c
      | none => .error ⟨.invalidNumber token.text, token.position⟩ c := by
  unfold numberOf
  cases Number.read? token.text <;> rfl

/-! ## Sequences -/

export Sequencing (bind_apply bind_of_ok bind_eq_ok bind_eq_error)

theorem peek_bind (f : Token → Reader β) (c : Cursor) : (peek >>= f) c = f c.peek c := rfl

theorem check_bind (kind : TokenKind) (f : Bool → Reader β) (c : Cursor) :
    (check kind >>= f) c = f (c.check kind) c := rfl

theorem isAtEnd_bind (f : Bool → Reader β) (c : Cursor) :
    (isAtEnd >>= f) c = f c.isAtEnd c := rfl

theorem advance_bind (f : Token → Reader β) (c : Cursor) :
    (advance >>= f) c = f c.peek c.advance := rfl

/-- A branch on an optional token is taken where the token stands. -/
theorem accept?_bind_of_check {kind : TokenKind} {f : Option Token → Reader β} {c : Cursor}
    (h : c.check kind = true) : (accept? kind >>= f) c = f (some c.peek) c.advance :=
  bind_of_ok (by rw [accept?_apply, if_pos h])

/-- Where another token stands, the branch without it is taken. -/
theorem accept?_bind_of_not_check {kind : TokenKind} {f : Option Token → Reader β} {c : Cursor}
    (h : c.check kind = false) : (accept? kind >>= f) c = f none c :=
  bind_of_ok (by rw [accept?_apply, h]; rfl)

/-- Where the required token stands, requiring it is consuming it. -/
theorem expect_of_check {kind : TokenKind} {message : String} {c : Cursor}
    (h : c.check kind = true) : expect kind message c = advance c := by
  rw [expect_apply, if_pos h, advance_apply]

/-- A number token is taken first and judged then. -/
theorem numeral_bind (message : String) (g : Token → Number → Reader β) {c : Cursor}
    (h : c.check .number = true) :
    (expect .number message >>= fun t => numberOf t >>= g t) c =
      match Number.read? c.peek.text with
      | some value => g c.peek value c.advance
      | none => .error ⟨.invalidNumber c.peek.text, c.peek.position⟩ c.advance := by
  rw [bind_of_ok ((expect_of_check h).trans (advance_apply c)), bind_apply, numberOf_apply]
  cases Number.read? c.peek.text <;> rfl

/-! ## Dispatch on the next token -/

/-- The kind of the next token decides how an expression is read; four kinds begin one. -/
theorem expressionWith_apply (arguments : Reader (List Expression)) (c : Cursor) :
    expressionWith arguments c = match c.peek.kind with
      | .number =>
        (advance >>= fun start => numberOf start >>= fun value => pure (.number start value)) c
      | .text => .ok (.text c.peek c.peek.text) c.advance
      | .identifier => .ok (.reference c.peek c.peek.text) c.advance
      | .doWord => (callWith arguments >>= fun target => pure (.call target)) c
      | _ => .error ⟨.unexpectedInExpression c.peek.description, c.peek.position⟩ c := by
  rw [expressionWith, peek_bind]
  cases c.peek.kind <;> rfl

end Reader

end Parlance
