import Parlance.Token

/-!
# Reading tokens in order

A cursor stands before the tokens that are still to be read. It knows the token that ends the
input, which it never passes: the first such token of the list, or, in a list without one, a
token made up for the purpose at the place of the last token. There are two ways to hold such a
place: `Cursor` has the tokens ahead, cut off where the input ends, and `IndexCursor` has the whole
list and an index into it. `TokenSource` is what a reader needs of either.

A reader takes tokens from a cursor and gives a value or a syntax error; either way the cursor it
leaves shows what was consumed. A reader that only tests the next token consumes nothing when the
test fails.
-/

namespace Parlance

/-- What can be wrong with the order of tokens. -/
inductive SyntaxFault where
  /-- No statement begins with this token. -/
  | unexpectedToken (description : String)
  /-- No expression begins with this token. -/
  | unexpectedInExpression (description : String)
  /-- A required token is missing; the message says which. -/
  | expected (message : String)
  /-- A statement is not closed. -/
  | missingSemicolon (context : String)
  /-- A name begins a statement that gives it no value. -/
  | standaloneIdentifier (name : String)
  /-- The text of a number token is no number. -/
  | invalidNumber (literal : String)
  /-- A variable is set to something that is no call. -/
  | expectedCallAfterSet
  /-- The block that a keyword requires is missing. -/
  | expectedBlock (keyword : String)
  /-- A block is still open where the tokens end. -/
  | unclosedBlock
deriving DecidableEq, Repr

/-- The wording of a syntax fault. -/
def SyntaxFault.wording : SyntaxFault → String
  | unexpectedToken description => "Unexpected token '" ++ description ++ "'."
  | unexpectedInExpression description =>
    "Unexpected token '" ++ description ++ "' in expression."
  | expected message => message
  | missingSemicolon context => "Missing semicolon ';' after " ++ context ++ "."
  | standaloneIdentifier name =>
    "Undefined variable '" ++ name ++ "'. Standalone identifiers are not valid statements."
  | invalidNumber literal => "Invalid number literal '" ++ literal ++ "'."
  | expectedCallAfterSet =>
    "Expected method call after 'set <name> to'. Use: set x to do method and use ...;"
  | expectedBlock keyword => "Expected '\x7b' to start " ++ keyword ++ " block."
  | unclosedBlock => "Expected '\x7d' to close block."

/-- A syntax fault at its place. -/
abbrev SyntaxError := Located SyntaxFault

/-- The report of a syntax error. -/
def SyntaxError.message (error : SyntaxError) : String :=
  error.report SyntaxFault.wording

/-- A place in a list of tokens. -/
structure Cursor where
  /-- The tokens still to be read, without the end of the input. -/
  ahead : List Token
  /-- The token that ends the input. -/
  finish : Token
  finish_kind : finish.kind = .endOfInput
deriving DecidableEq, Repr

namespace Cursor

/-- The end of the input of a list that has none. -/
def syntheticEnd (tokens : List Token) : Token :=
  ⟨.endOfInput, "", (tokens.getLast?.map Token.position).getD .start⟩

/-- The cursor before a list of tokens. -/
def ofTokens (tokens : List Token) : Cursor where
  ahead := tokens.takeWhile (·.kind != .endOfInput)
  finish := (tokens.find? (·.kind == .endOfInput)).getD (syntheticEnd tokens)
  finish_kind := by
    cases found : tokens.find? (·.kind == .endOfInput) with
    | none => rfl
    | some token => simpa using List.find?_some found

/-- The next token. -/
def peek (cursor : Cursor) : Token :=
  cursor.ahead.head?.getD cursor.finish

/-- Whether everything is read. -/
def isAtEnd (cursor : Cursor) : Bool :=
  cursor.ahead.isEmpty

/-- Whether the next token is of a kind. -/
def check (cursor : Cursor) (kind : TokenKind) : Bool :=
  cursor.peek.kind == kind

/-- The cursor behind the next token; the end of the input stays ahead. -/
def advance (cursor : Cursor) : Cursor :=
  { cursor with ahead := cursor.ahead.tail }

end Cursor

/-- A place in a list of tokens, by its index. The list is whole, with what may stand behind the end
of the input. -/
@[ext] structure IndexCursor where
  tokens : List Token
  /-- How many tokens are consumed. -/
  current : Nat
  /-- What is seen where the list has no token. -/
  finish : Token
  finish_kind : finish.kind = .endOfInput
deriving DecidableEq, Repr

namespace IndexCursor

/-- The index cursor before a list of tokens. -/
def ofTokens (tokens : List Token) : IndexCursor where
  tokens := tokens
  current := 0
  finish := Cursor.syntheticEnd tokens
  finish_kind := rfl

/-- The next token. -/
def peek (cursor : IndexCursor) : Token :=
  cursor.tokens[cursor.current]?.getD cursor.finish

/-- Whether everything is read. -/
def isAtEnd (cursor : IndexCursor) : Bool :=
  cursor.peek.kind == .endOfInput

/-- The cursor behind the next token, unless this is the end of the input. -/
def advance (cursor : IndexCursor) : IndexCursor :=
  if cursor.isAtEnd then cursor else { cursor with current := cursor.current + 1 }

end IndexCursor

/-- Tokens that are read in order, with one token of lookahead. -/
class TokenSource (σ : Type) where
  /-- The next token. -/
  peek : σ → Token
  /-- Whether everything is read. -/
  isAtEnd : σ → Bool
  /-- What is left behind the next token. -/
  advance : σ → σ
  /-- How many tokens are ahead at most. -/
  remaining : σ → Nat

instance : TokenSource Cursor where
  peek := Cursor.peek
  isAtEnd := Cursor.isAtEnd
  advance := Cursor.advance
  remaining cursor := cursor.ahead.length

instance : TokenSource IndexCursor where
  peek := IndexCursor.peek
  isAtEnd := IndexCursor.isAtEnd
  advance := IndexCursor.advance
  remaining cursor := cursor.tokens.length - cursor.current

/-- A reader of tokens from a source. -/
abbrev Reading (σ : Type) := EStateM SyntaxError σ

/-- A reader of tokens. -/
abbrev Reader := Reading Cursor

namespace Reader

variable {σ : Type} [TokenSource σ]

/-- The next token, left where it is. -/
def peek : Reading σ Token := return TokenSource.peek (← get)

/-- Whether everything is read. -/
def isAtEnd : Reading σ Bool := return TokenSource.isAtEnd (← get)

/-- Whether the next token is of a kind. -/
def check (kind : TokenKind) : Reading σ Bool := return (TokenSource.peek (← get)).kind == kind

/-- The next token, consumed. -/
def advance : Reading σ Token := fun source =>
  .ok (TokenSource.peek source) (TokenSource.advance source)

/-- The next token, consumed if it is of a kind. -/
def accept? (kind : TokenKind) : Reading σ (Option Token) := do
  if ← check kind then return some (← advance) else return none

/-- Fails at the next token. -/
def failHere {α : Type} (fault : SyntaxFault) : Reading σ α := do
  throw ⟨fault, (← peek).position⟩

/-- The next token, which has to be of a kind. -/
def expect (kind : TokenKind) (message : String) : Reading σ Token := do
  if ← check kind then advance else failHere (.expected message)

/-- Consumes the semicolon that closes a statement. -/
def expectSemicolon (context : String) : Reading σ Unit := do
  if ← check .semicolon then
    let _ ← advance
  else failHere (.missingSemicolon context)

end Reader

end Parlance
