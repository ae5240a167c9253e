import Parlance.Method
import Parlance.Program.Parser
import Parlance.Token.Lexer

/-!
# The meaning of programs

Expressions are evaluated and statements carried out from left to right; the first fault ends the
run. An expression changes no variable. A loop is carried out for no more than a number of rounds
(`Machine`), everything else follows the structure of the program.

A source text is cut into tokens and parsed as a whole before anything of it is carried out.
-/

namespace Parlance

/-! ## Expressions -/

mutual
/-- The value of an expression. -/
def Expression.evaluate : Expression → Run Value
  | .number _ value => return .number value
  | .text _ content => return .text content
  | .reference start name => Run.lookup name start.position
  | .call target => target.evaluate
/-- The result of a call, after its arguments. -/
def Call.evaluate : Call → Run Value
  | .mk start name arguments => do
    let values ← evaluateAll arguments
    Method.invoke name values start.position
/-- The values of expressions in order. -/
def evaluateAll : List Expression → Run (List Value)
  | [] => return []
  | first :: rest => do
    let value ← first.evaluate
    return value :: (← evaluateAll rest)
end

/-! ## Statements -/

mutual
/-- Carries out a statement, each loop for no more than `rounds` rounds. -/
def Statement.execute (rounds : Nat) : Statement → Run Unit
  | .assignNumber _ name value => Run.assign name (.number value)
  | .assignText _ name content => Run.assign name (.text content)
  | .assignCall _ name source => do
    let value ← source.evaluate
    Run.assign name value
  | .say start value => do
    let value ← value.evaluate
    Run.console start.position (Console.writeLine value.display)
  | .perform target => do
    let _ ← target.evaluate
  | .group body => body.execute rounds
  | .ifThen _ condition body => do
    if (← condition.evaluate).isTruthy then body.execute rounds
  | .ifElse _ condition body alternative => do
    if (← condition.evaluate).isTruthy then body.execute rounds
    else alternative.execute rounds
  | .whileLoop _ condition body =>
    Run.repeatWhile condition.evaluate (body.execute rounds) rounds
/-- Carries out the statements of a block. -/
def Block.execute (rounds : Nat) : Block → Run Unit
  | .mk _ statements => executeAll rounds statements
/-- Carries out statements in order. -/
def executeAll (rounds : Nat) : List Statement → Run Unit
  | [] => return ()
  | first :: rest => do
    first.execute rounds
    executeAll rounds rest
end

/-- Carries out a program. -/
def Program.execute (rounds : Nat) (program : Program) : Run Unit :=
  executeAll rounds program

/-! ## Sources -/

/-- What can go wrong with a source text, from its characters to its run. -/
inductive Failure where
  /-- It is not made of tokens. -/
  | lexical (error : LexicalError)
  /-- Its tokens make no program. -/
  | grammatical (error : SyntaxError)
  /-- Its program failed. -/
  | runtime (error : RuntimeError)
deriving DecidableEq, Repr

/-- The report of a failure. -/
def Failure.message : Failure → String
  | lexical error => error.message
  | grammatical error => error.message
  | runtime error => error.message

/-- How the run of a source text ends. -/
inductive Outcome where
  /-- It came to its end. -/
  | completed
  /-- It failed. -/
  | failed (failure : Failure)
  /-- It was cut off. -/
  | unfinished
deriving DecidableEq, Repr

/-- The program of a source text. -/
def Program.ofSource (source : String) : Except Failure Program :=
  match tokenize source with
  | .error error => .error (.lexical error)
  | .ok tokens =>
    match parse tokens with
    | .error error => .error (.grammatical error)
    | .ok program => .ok program

/-- Runs a program on a machine. -/
def Machine.run (rounds : Nat) (program : Program) (machine : Machine) : Outcome × Machine :=
  match program.execute rounds machine with
  | .ok () machine => (.completed, machine)
  | .error (.failed error) machine => (.failed (.runtime error), machine)
  | .error .unfinished machine => (.unfinished, machine)

/-- Runs a source text on a machine. -/
def Machine.runSource (rounds : Nat) (source : String) (machine : Machine) : Outcome × Machine :=
  match Program.ofSource source with
  | .error failure => (.failed failure, machine)
  | .ok program => machine.run rounds program

end Parlance
