import Parlance.Number.Reading
import Parlance.Program
import Parlance.Program.Cursor

/-!
# From tokens to a program

Each construct is known by its first token, and one token of lookahead decides everything else: a
comma goes on with the arguments of the innermost call, and `else` belongs to the nearest condition.

Expressions nest in the arguments of calls, and statements in blocks. The readers `callWith`,
`expressionWith` and `statementWith` take the reader of what is nested as an argument; `arguments`
and `statements` close the circle. Their bound counts how many more constructs may begin, and a
construct begins with a token of its own, so the number of tokens ahead is always enough: with no
token left `arguments` fails and `statements` ends, as they should.
-/

namespace Parlance

namespace Reader

variable {σ : Type} [TokenSource σ]

/-! ## Expressions -/

/-- The number that a token stands for. -/
def numberOf (token : Token) : Reading σ Number :=
  match Number.read? token.text with
  | some value => return value
  | none => throw ⟨.invalidNumber token.text, token.position⟩

/-- Whether a call before a token of this kind has no arguments. -/
def endsArguments (kind : TokenKind) : Bool :=
  kind == .semicolon || kind == .leftBrace || kind == .rightBrace || kind == .endOfInput

/-- Reads a call; `arguments` reads what follows `use`, unless nothing does. -/
def callWith (arguments : Reading σ (List Expression)) : Reading σ Call := do
  let start ← expect .doWord "Expected 'do'."
  let name ← expect .identifier "Expected method name after 'do'."
  let _ ← expect .andWord "Expected keyword 'and' after method name."
  let _ ← expect .useWord "Expected keyword 'use' after 'and'."
  if endsArguments (← peek).kind then return .mk start name.text []
  else return .mk start name.text (← arguments)

/-- Reads an expression; `arguments` reads the arguments of a call. -/
def expressionWith (arguments : Reading σ (List Expression)) : Reading σ Expression := do
  let next ← peek
  match next.kind with
  | .number =>
    let start ← advance
    return .number start (← numberOf start)
  | .text =>
    let start ← advance
    return .text start start.text
  | .identifier =>
    let start ← advance
    return .reference start start.text
  | .doWord => return .call (← callWith arguments)
  | _ => failHere (.unexpectedInExpression next.description)

/-- Reads one or more expressions with commas between them. -/
def arguments : Nat → Reading σ (List Expression)
  | 0 => do failHere (.unexpectedInExpression (← peek).description)
  | bound + 1 => do
    let first ← expressionWith (arguments bound)
    if (← accept? .comma).isSome then return first :: (← arguments bound)
    else return [first]

/-! ## Statements -/

/-- Reads a block; `statements` reads what stands between the braces. -/
def blockWith (statements : Reading σ (List Statement)) : Reading σ Block := do
  let start ← advance
  let body ← statements
  if (← accept? .rightBrace).isSome then return .mk start body
  else failHere .unclosedBlock

/-- Reads the block that has to follow a keyword. -/
def requiredBlockWith (statements : Reading σ (List Statement)) (keyword : String) :
    Reading σ Block := do
  if ← check .leftBrace then blockWith statements else failHere (.expectedBlock keyword)

/-- Reads what gives a value to a name at the start of a statement. -/
def assignment : Reading σ Statement := do
  let name ← expect .identifier "Expected identifier."
  if (← accept? .hasWord).isSome then
    let _ ← expect .valueWord "Expected keyword 'value' after 'has'."
    let literal ← expect .number "Expected numeric literal after 'has value'."
    let value ← numberOf literal
    expectSemicolon "numeric assignment"
    return .assignNumber name name.text value
  else if (← accept? .meansWord).isSome then
    let literal ← expect .text
      "Expected string literal after 'means'. Text values must use double quotes."
    expectSemicolon "text assignment"
    return .assignText name name.text literal.text
  else throw ⟨.standaloneIdentifier name.text, name.position⟩

/-- Reads a statement that begins with `set`. -/
def setFromCall (call : Reading σ Call) : Reading σ Statement := do
  let start ← expect .setWord "Expected 'set'."
  let name ← expect .identifier "Expected variable name after 'set'."
  let _ ← expect .toWord "Expected keyword 'to' after variable name."
  if ← check .doWord then
    let call ← call
    expectSemicolon "set statement"
    return .assignCall start name.text call
  else failHere .expectedCallAfterSet

/-- Reads a statement that begins with `if`. -/
def condition (expression : Reading σ Expression) (block : String → Reading σ Block) :
    Reading σ Statement := do
  let start ← expect .ifWord "Expected 'if'."
  let condition ← expression
  let body ← block "if"
  if (← accept? .elseWord).isSome then return .ifElse start condition body (← block "else")
  else return .ifThen start condition body

/-- Reads a statement. Its expressions are read within a bound, and `statements` reads the inside of
its blocks. -/
def statementWith (bound : Nat) (statements : Reading σ (List Statement)) :
    Reading σ Statement := do
  let next ← peek
  match next.kind with
  | .leftBrace => return .group (← blockWith statements)
  | .sayWord =>
    let start ← advance
    let value ← expressionWith (arguments bound)
    expectSemicolon "say statement"
    return .say start value
  | .doWord =>
    let call ← callWith (arguments bound)
    expectSemicolon "method call"
    return .perform call
  | .setWord => setFromCall (callWith (arguments bound))
  | .ifWord => condition (expressionWith (arguments bound)) (requiredBlockWith statements)
  | .whileWord =>
    let start ← expect .whileWord "Expected 'while'."
    let condition ← expressionWith (arguments bound)
    return .whileLoop start condition (← requiredBlockWith statements "while")
  | .identifier => assignment
  | _ => failHere (.unexpectedToken next.description)

/-- Reads statements up to a closing brace or the end of the input. -/
def statements : Nat → Reading σ (List Statement)
  | 0 => return []
  | bound + 1 => do
    if (← isAtEnd) || (← check .rightBrace) then return []
    let first ← statementWith bound (statements bound)
    return first :: (← statements bound)

/-! ## Bounds from the tokens ahead -/

/-- How many tokens are ahead at most. -/
def remaining : Reading σ Nat := return TokenSource.remaining (← get)

/-- Reads an expression. -/
def expression : Reading σ Expression := do
  expressionWith (arguments (← remaining))

/-- Reads a call. -/
def call : Reading σ Call := do
  callWith (arguments (← remaining))

/-- Reads a statement. -/
def statement : Reading σ Statement := do
  let bound ← remaining
  statementWith bound (statements bound)

/-- Reads a program: statements up to the end of the input. -/
def program : Reading σ Program := do
  let body ← statements (← remaining)
  if ← isAtEnd then return body
  else failHere (.unexpectedToken (← peek).description)

end Reader

/-- The program that a list of tokens stands for, or the first token that fits none. -/
def parse (tokens : List Token) : Except SyntaxError Program :=
  match Reader.program (Cursor.ofTokens tokens) with
  | .ok program _ => .ok program
  | .error error _ => .error error

end Parlance
