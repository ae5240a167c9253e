import Parlance.Position

/-!
# Tokens

A token is a word, a literal or a mark of a program, with its text and the place where it begins.
Blanks, line ends and comments have kinds too, so that a hand-made list may hold them; the lexer
drops them and ends its list with one token of the kind `endOfInput`.
-/

namespace Parlance

/-- The kinds of token. The first twelve are the reserved words. -/
inductive TokenKind where
  | hasWord
  | valueWord
  | meansWord
  | sayWord
  | doWord
  | andWord
  | useWord
  | setWord
  | toWord
  | ifWord
  | elseWord
  | whileWord
  /-- A name that is no reserved word. -/
  | identifier
  /-- A number literal. -/
  | number
  /-- A text literal; the token's text is what the literal stands for. -/
  | text
  | semicolon
  | comma
  | leftBrace
  | rightBrace
  | comment
  | newline
  | blank
  | endOfInput
deriving DecidableEq, Repr

namespace TokenKind

/-- How a kind is named in a report. A reserved word and a mark are named by their spelling. -/
def description : TokenKind → String
  | hasWord => "has"
  | valueWord => "value"
  | meansWord => "means"
  | sayWord => "say"
  | doWord => "do"
  | andWord => "and"
  | useWord => "use"
  | setWord => "set"
  | toWord => "to"
  | ifWord => "if"
  | elseWord => "else"
  | whileWord => "while"
  | identifier => "identifier"
  | number => "number"
  | text => "string"
  | semicolon => ";"
  | comma => ","
  | leftBrace => "\x7b"
  | rightBrace => "\x7d"
  | comment => "comment"
  | newline => "newline"
  | blank => "whitespace"
  | endOfInput => "end of input"

/-- The reserved words. -/
def reserved : List TokenKind :=
  [hasWord, valueWord, meansWord, sayWord, doWord, andWord, useWord, setWord, toWord, ifWord,
   elseWord, whileWord]

/-- The kind of a name: a reserved word if it is spelled exactly as one, case included. -/
def ofName (name : String) : TokenKind :=
  (reserved.find? fun kind => kind.description == name).getD identifier

end TokenKind

/-- A token of a program. -/
structure Token where
  /-- What kind of token it is. -/
  kind : TokenKind
  /-- The characters as written, or what a text literal stands for. -/
  text : String
  /-- The place of its first character. -/
  position : Position
deriving DecidableEq, Repr

/-- How a token is named in a report: by its text, or by its kind when the text is empty. -/
def Token.description (token : Token) : String :=
  if token.text.isEmpty then token.kind.description else token.text

end Parlance
