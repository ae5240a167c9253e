import Parlance.Token.Lexer

/-!
# The lexical grammar

The rules say which runs of characters are lexemes and what a lexeme stands for: a token up to its
place, or nothing if it is skipped. They know nothing of what follows a lexeme. `Longest` adds that,
and `Splits` cuts a text from left to right into longest lexemes up to a remainder.

The rules are stated apart from the lexer: words, marks and escapes are listed here again, and the
extent of a lexeme is never computed. Only the classes of characters (letters, numerals, blanks,
digits) are shared, since they are the alphabet of both.

## What this does not decide

Whether a remainder is empty, or why it is refused. A text can be split up to every place where a
longest lexeme ends; the interesting remainders are those that no lexeme begins (`Unmatched`).
-/

namespace Parlance

namespace Lexer

open Text

/-! ## Lexemes -/

/-- The spelling of every reserved word. -/
def reservedWords : List (String × TokenKind) :=
  [("has", .hasWord), ("value", .valueWord), ("means", .meansWord), ("say", .sayWord),
   ("do", .doWord), ("and", .andWord), ("use", .useWord), ("set", .setWord), ("to", .toWord),
   ("if", .ifWord), ("else", .elseWord), ("while", .whileWord)]

/-- The characters that are marks. -/
def marks : List (Char × TokenKind) :=
  [(';', .semicolon), (',', .comma), ('\x7b', .leftBrace), ('\x7d', .rightBrace)]

/-- A letter or an underscore, then letters, numerals and underscores. -/
inductive NameShape : List Char → Prop
  | mk {c : Char} {cs : List Char} (first : isLetter c = true ∨ c = '_')
      (others : ∀ d ∈ cs, isLetter d = true ∨ isNumeral d = true ∨ d = '_') : NameShape (c :: cs)

/-- A point and digits, or nothing. -/
inductive FractionShape : List Char → Prop
  | none : FractionShape []
  | some {digits : List Char} (hdigits : ∀ d ∈ digits, d.isDigit = true) :
      FractionShape ('.' :: digits)

/-- Digits, one at least, and perhaps a fraction. -/
inductive UnsignedShape : List Char → Prop
  | mk {whole fraction : List Char} (nonempty : whole ≠ [])
      (hwhole : ∀ d ∈ whole, d.isDigit = true) (hfraction : FractionShape fraction) :
      UnsignedShape (whole ++ fraction)

/-- The inside of a text literal, as written and as meant: no bare quote, backslash or line end. -/
inductive QuotedBody : List Char → List Char → Prop
  | nil : QuotedBody [] []
  | plain {c : Char} {written meant : List Char} (quote : c ≠ '"') (backslash : c ≠ '\\')
      (lineEnd : c ≠ '\n') : QuotedBody written meant → QuotedBody (c :: written) (c :: meant)
  | newline {written meant : List Char} :
      QuotedBody written meant → QuotedBody ('\\' :: 'n' :: written) ('\n' :: meant)
  | carriageReturn {written meant : List Char} :
      QuotedBody written meant → QuotedBody ('\\' :: 'r' :: written) ('\r' :: meant)
  | tab {written meant : List Char} :
      QuotedBody written meant → QuotedBody ('\\' :: 't' :: written) ('\t' :: meant)
  | other {c : Char} {written meant : List Char} (newline : c ≠ 'n') (carriageReturn : c ≠ 'r')
      (tab : c ≠ 't') : QuotedBody written meant → QuotedBody ('\\' :: c :: written) (c :: meant)

/-- What a lexeme stands for: the kind and the text of a token, or nothing. -/
abbrev Meaning := Option (TokenKind × String)

/-- The rules of the lexical grammar. -/
inductive Lexeme : List Char → Meaning → Prop
  | blanks {cs : List Char} (nonempty : cs ≠ []) (hblank : ∀ c ∈ cs, isBlank c = true ∧ c ≠ '\n') :
      Lexeme cs none
  | lineEnd : Lexeme ['\n'] none
  | comment {body : List Char} (hbody : '\n' ∉ body) : Lexeme ('/' :: '/' :: body) none
  | mark {c : Char} {kind : TokenKind} (hmark : (c, kind) ∈ marks) :
      Lexeme [c] (some (kind, String.ofList [c]))
  | reserved {word : String} {kind : TokenKind} (hword : (word, kind) ∈ reservedWords) :
      Lexeme word.toList (some (kind, word))
  | identifier {cs : List Char} (hname : NameShape cs)
      (hfree : ∀ entry ∈ reservedWords, entry.1 ≠ String.ofList cs) :
      Lexeme cs (some (.identifier, String.ofList cs))
  | unsigned {cs : List Char} (hnumber : UnsignedShape cs) :
      Lexeme cs (some (.number, String.ofList cs))
  | negative {cs : List Char} (hnumber : UnsignedShape cs) :
      Lexeme ('-' :: cs) (some (.number, String.ofList ('-' :: cs)))
  | quoted {written meant : List Char} (hbody : QuotedBody written meant) :
      Lexeme ('"' :: (written ++ ['"'])) (some (.text, String.ofList meant))

/-! ## Splitting a text -/

/-- The longest lexeme that a text begins with. -/
structure Longest (cs lexeme : List Char) (meaning : Meaning) : Prop where
  accepted : Lexeme lexeme meaning
  front : lexeme <+: cs
  longest : ∀ {other : List Char} {meaning : Meaning}, Lexeme other meaning → other <+: cs →
    other.length ≤ lexeme.length

/-- A lexeme in its text. -/
structure Cut where
  /-- Everything before the lexeme. -/
  before : List Char
  lexeme : List Char
  meaning : Meaning

/-- A text, with what stands before it, is cut into longest lexemes up to a remainder. -/
inductive Splits : List Char → List Char → List Cut → List Char → Prop
  | done {before rest : List Char} : Splits before rest [] rest
  | cut {before lexeme cs rest : List Char} {meaning : Meaning} {cuts : List Cut}
      (hlexeme : Longest (lexeme ++ cs) lexeme meaning)
      (hrest : Splits (before ++ lexeme) cs cuts rest) :
      Splits before (lexeme ++ cs) (⟨before, lexeme, meaning⟩ :: cuts) rest

/-- No lexeme begins here. -/
def Unmatched (cs : List Char) : Prop :=
  ∀ {lexeme : List Char} {meaning : Meaning}, Lexeme lexeme meaning → ¬ lexeme <+: cs

/-- Why a text that no lexeme begins is refused: its first character tells. -/
def refusal (c : Char) : LexicalFault :=
  if c = '"' then .unterminatedText else if c = '-' then .invalidNumber else .unexpectedCharacter c

end Lexer

end Parlance
