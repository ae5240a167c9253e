import Parlance.Token
import Parlance.Number

/-!
# Programs

A program is a list of statements. Every statement, block, call and expression keeps the token it
starts with, which is where an error in it is reported.

Blocks open no scope: a block is a statement only to group others, or the body of a condition or a
loop.
-/

namespace Parlance

mutual
/-- What has a value. -/
inductive Expression where
  /-- A number literal. -/
  | number (start : Token) (value : Number)
  /-- A text literal. -/
  | text (start : Token) (content : String)
  /-- The value of a variable. -/
  | reference (start : Token) (name : String)
  /-- The result of a call. -/
  | call (target : Call)
/-- A method applied to arguments. -/
inductive Call where
  | mk (start : Token) (name : String) (arguments : List Expression)
end

mutual
/-- What can be carried out. -/
inductive Statement where
  /-- A variable gets a number. -/
  | assignNumber (start : Token) (name : String) (value : Number)
  /-- A variable gets a text. -/
  | assignText (start : Token) (name : String) (content : String)
  /-- A variable gets the result of a call. -/
  | assignCall (start : Token) (name : String) (source : Call)
  /-- A value is written on a line of its own. -/
  | say (start : Token) (value : Expression)
  /-- A call is made for its effects. -/
  | perform (target : Call)
  /-- Statements are grouped. -/
  | group (body : Block)
  /-- A block is carried out if a condition holds. -/
  | ifThen (start : Token) (condition : Expression) (body : Block)
  /-- One of two blocks is carried out. -/
  | ifElse (start : Token) (condition : Expression) (body : Block) (alternative : Block)
  /-- A block is carried out as long as a condition holds. -/
  | whileLoop (start : Token) (condition : Expression) (body : Block)
/-- Statements between braces. -/
inductive Block where
  | mk (start : Token) (statements : List Statement)
end

/-- A program. -/
abbrev Program := List Statement

namespace Call

/-- The word `do` of a call. -/
def start : Call → Token
  | mk start _ _ => start

/-- The name of the method called. -/
def name : Call → String
  | mk _ name _ => name

/-- The arguments of a call. -/
def arguments : Call → List Expression
  | mk _ _ arguments => arguments

end Call

/-- The token that an expression starts with. -/
def Expression.start : Expression → Token
  | number start _ => start
  | text start _ => start
  | reference start _ => start
  | call target => target.start

namespace Block

/-- The opening brace of a block. -/
def start : Block → Token
  | mk start _ => start

/-- The statements of a block. -/
def statements : Block → List Statement
  | mk _ statements => statements

end Block

/-- The token that a statement starts with. -/
def Statement.start : Statement → Token
  | assignNumber start _ _ => start
  | assignText start _ _ => start
  | assignCall start _ _ => start
  | say start _ => start
  | perform target => target.start
  | group body => body.start
  | ifThen start _ _ => start
  | ifElse start _ _ _ => start
  | whileLoop start _ _ => start

end Parlance
