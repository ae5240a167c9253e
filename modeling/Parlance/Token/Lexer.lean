import Parlance.Text.Bytes
import Parlance.Text.Letter
import Parlance.Text.Numeral
import Parlance.Text.Blank
import Parlance.Token

/-!
# From a source text to tokens

A source text is cut into pieces from left to right, each the longest that its first character
allows: a run of blanks, a line end, a comment, a mark, a name, a number or a text literal. `scan`
decides one piece from the characters ahead, and `tokensAt` repeats it.

The first character alone decides which rule applies, so no two rules compete for a piece. A piece
that cannot be cut is an error at its first character, and nothing behind it matters.

Pieces are found by their bytes. The lexer carries the offset of the byte it stands at and a
`LineMark`: the number of the current line and the offset of its first byte. A column is counted
afresh whenever it is asked for, by the characters between the two offsets. The mark moves in two
ways only, at a line end of its own and over the line ends inside a text literal, and in the second
case only after the place of the literal was taken.
-/

namespace Parlance

open Text

/-- What can be wrong with a source text. -/
inductive LexicalFault where
  /-- No piece begins with this character. -/
  | unexpectedCharacter (c : Char)
  /-- A text literal is still open at the end of its line, or of the source. -/
  | unterminatedText
  /-- A minus sign stands before something that is no digit. -/
  | invalidNumber
deriving DecidableEq, Repr

/-- The wording of a lexical fault. -/
def LexicalFault.wording : LexicalFault → String
  | unexpectedCharacter c => "Unexpected character '" ++ c.toString ++ "'."
  | unterminatedText => "Unterminated string literal."
  | invalidNumber => "Invalid number literal."

/-- A lexical fault at its place. -/
abbrev LexicalError := Located LexicalFault

/-- The report of a lexical error. -/
def LexicalError.message (error : LexicalError) : String :=
  error.report LexicalFault.wording

namespace Lexer

/-! ## Classes of characters -/

/-- Whether a character separates words without ending the line. -/
def isInlineBlank (c : Char) : Bool :=
  isBlank c && c != '\n'

/-- Whether a name may begin with this character. -/
def beginsName (c : Char) : Bool :=
  isLetter c || c == '_'

/-- Whether a name may go on with this character. -/
def continuesName (c : Char) : Bool :=
  isLetter c || isNumeral c || c == '_'

/-- The kind of a mark that stands for itself. -/
def markKind? : Char → Option TokenKind
  | ';' => some .semicolon
  | ',' => some .comma
  | '\x7b' => some .leftBrace
  | '\x7d' => some .rightBrace
  | _ => none

/-! ## One piece -/

/-- What a piece of the source stands for. -/
inductive Piece where
  /-- Blanks or a comment. -/
  | skipped
  /-- A line end of its own, skipped too. -/
  | lineEnd
  /-- A token whose text is the piece itself. -/
  | plain (kind : TokenKind)
  /-- A text literal. -/
  | quoted
deriving DecidableEq, Repr

/-- How many of the characters behind a sign or a first digit belong to the number: the digits up
to a point, and with the point the digits behind it. -/
def numberExtent (cs : List Char) : Nat :=
  let whole := (cs.takeWhile Char.isDigit).length
  match cs.drop whole with
  | '.' :: fraction => whole + 1 + (fraction.takeWhile Char.isDigit).length
  | _ => whole

/-- How many of the characters behind an opening quote belong to the literal, its closing quote
included. A backslash takes the next character with it, be it a quote or a line end. -/
def quotedExtent? : List Char → Option Nat
  | [] => none
  | '"' :: _ => some 1
  | '\n' :: _ => none
  | '\\' :: _ :: cs => (quotedExtent? cs).map (· + 2)
  | _ :: cs => (quotedExtent? cs).map (· + 1)

/-- The piece that begins with `c` when the characters `cs` follow: what it stands for, and how
many of `cs` belong to it. -/
def scan (c : Char) (cs : List Char) : Except LexicalFault (Piece × Nat) :=
  if c = '\n' then
    .ok (.lineEnd, 0)
  else if isBlank c then
    .ok (.skipped, (cs.takeWhile isInlineBlank).length)
  else if c = '/' ∧ cs.head? = some '/' then
    .ok (.skipped, (cs.takeWhile (· != '\n')).length)
  else if beginsName c then
    let name := cs.takeWhile continuesName
    .ok (.plain (.ofName (String.ofList (c :: name))), name.length)
  else if c.isDigit then
    .ok (.plain .number, numberExtent cs)
  else if c = '-' then
    if cs.head?.any Char.isDigit then .ok (.plain .number, numberExtent cs)
    else .error .invalidNumber
  else if c = '"' then
    match quotedExtent? cs with
    | some extent => .ok (.quoted, extent)
    | none => .error .unterminatedText
  else
    match markKind? c with
    | some kind => .ok (.plain kind, 0)
    | none => .error (.unexpectedCharacter c)

/-! ## The text of a piece -/

/-- The character that stands for `c` behind a backslash. -/
def escaped : Char → Char
  | 'n' => '\n'
  | 'r' => '\r'
  | 't' => '\t'
  | c => c

/-- The characters between the quotes of a literal, with their escapes resolved. -/
def unescape : List Char → List Char
  | '\\' :: c :: cs => escaped c :: unescape cs
  | c :: cs => c :: unescape cs
  | [] => []

/-- The token that a piece gives, if it is not skipped. -/
def Piece.token? (piece : Piece) (lexeme : List Char) (position : Position) : Option Token :=
  match piece with
  | skipped | lineEnd => none
  | plain kind => some ⟨kind, String.ofList lexeme, position⟩
  | quoted => some ⟨.text, String.ofList (unescape lexeme.tail.dropLast), position⟩

end Lexer

/-! ## Lines by bytes -/

/-- The line that is being read. -/
structure LineMark where
  /-- Its number, the first being 1. -/
  line : Nat
  /-- The offset of its first byte. -/
  lineStart : Nat
deriving DecidableEq, Repr

namespace LineMark

/-- The first line of a source. -/
def start : LineMark := ⟨1, 0⟩

/-- The place of a byte of the current line: one column for every character before it, and the first
column where the offsets enclose no whole characters. -/
def positionOf (mark : LineMark) (source : List Char) (offset : Nat) : Position :=
  ⟨mark.line, ((slice? source mark.lineStart offset).map List.length).getD 0 + 1⟩

/-- The mark behind a line end whose last byte stands before `stop`. -/
def newline (mark : LineMark) (stop : Nat) : LineMark := ⟨mark.line + 1, stop⟩

/-- The mark behind every line end inside a piece that begins at byte `start`. -/
def advanceOver (mark : LineMark) : List Char → Nat → LineMark
  | [], _ => mark
  | c :: cs, start =>
    (if c = '\n' then mark.newline (start + 1) else mark).advanceOver cs (start + c.utf8Size)

/-- The mark behind a piece that begins at byte `start`. -/
def past (mark : LineMark) (piece : Lexer.Piece) (lexeme : List Char) (start : Nat) : LineMark :=
  match piece with
  | .lineEnd => mark.newline (start + byteLength lexeme)
  | .quoted => mark.advanceOver lexeme start
  | .skipped | .plain _ => mark

end LineMark

/-! ## The whole source -/

namespace Lexer

/-- The tokens of the characters that begin at byte `offset` of a source, closed by the end of the
input. -/
def tokensAt (source : List Char) (mark : LineMark) (offset : Nat) :
    List Char → Except LexicalError (List Token)
  | [] => .ok [⟨.endOfInput, "", mark.positionOf source (byteLength source)⟩]
  | c :: cs =>
    let position := mark.positionOf source offset
    match scan c cs with
    | .error fault => .error ⟨fault, position⟩
    | .ok (piece, extent) =>
      let lexeme := c :: cs.take extent
      let mark := mark.past piece lexeme offset
      match tokensAt source mark (offset + byteLength lexeme) (cs.drop extent) with
      | .error error => .error error
      | .ok tokens => .ok ((piece.token? lexeme position).toList ++ tokens)
termination_by cs => cs.length
decreasing_by exact Nat.lt_succ_of_le (List.length_drop ▸ Nat.sub_le _ _)

end Lexer

/-- The tokens of a source text, or the first thing in it that is no token. -/
def tokenize (source : String) : Except LexicalError (List Token) :=
  Lexer.tokensAt source.toList .start 0 source.toList

end Parlance
