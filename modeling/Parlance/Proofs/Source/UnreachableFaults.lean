import Parlance.Proofs.Number.Numerals
import Parlance.Proofs.Program.Quoting
import Parlance.Proofs.Token.Joining

/-!
# Faults that no source text has

A list of tokens made by hand can hold anything. One read from a source text keeps promises: no token is
of a skipped kind, the end of the input stands at the end alone, and the text of a number token is a
number (`Lexer.exists_read?_of_lexeme`). The parser checks a number again, and this check never fails
behind the lexer.

Other checks of the parser never fail at all. The reader of a construct asks for the word that begins
it, and it is entered only where that word was seen; the seeing is done by another reader each time, and
`quotes_of_parse_error` has followed it through all of them. What it leaves to be missing
(`expectations`) holds none of these words.
-/

namespace Parlance

namespace Lexer

theorem Lexeme.kind_not_skipped {lexeme : List Char} {content : TokenKind × String}
    (h : Lexeme lexeme (some content)) :
    content.1 ≠ .comment ∧ content.1 ≠ .newline ∧ content.1 ≠ .blank :=
  h.kind_has (P := fun kind => kind ≠ .comment ∧ kind ≠ .newline ∧ kind ≠ .blank)
    (by decide) (by decide) (by decide)

/-- A lexeme that means a number is read as one. -/
theorem exists_read?_of_lexeme {lexeme : List Char} {text : String}
    (h : Lexeme lexeme (some (.number, text))) :
    ∃ value, Number.read? text = some value ∧ value ≠ .nan := by
  cases h with
  | mark hmark =>
    have hmarks : ∀ entry ∈ marks, entry.2 ≠ .number := by decide
    exact absurd rfl (hmarks _ hmark)
  | reserved hword =>
    have hwords : ∀ entry ∈ reservedWords, entry.2 ≠ .number := by decide
    exact absurd rfl (hwords _ hword)
  | unsigned hnumber => exact Number.exists_read?_of_unsignedShape false hnumber
  | negative hnumber => exact Number.exists_read?_of_unsignedShape true hnumber

end Lexer

open Lexer

section

variable {source : String} {tokens : List Token} {token : Token}

/-- The end of the input is of no skipped kind either. -/
theorem kind_not_skipped_of_mem_tokenize (h : tokenize source = .ok tokens) (htoken : token ∈ tokens) :
    token.kind ≠ .comment ∧ token.kind ≠ .newline ∧ token.kind ≠ .blank := by
  by_cases hend : token.kind = .endOfInput
  · rw [hend]
    decide
  · obtain ⟨_, hlexeme⟩ := exists_lexeme_of_mem_tokenize h htoken hend
    exact hlexeme.kind_not_skipped

theorem exists_read?_of_mem_tokenize (h : tokenize source = .ok tokens) (htoken : token ∈ tokens)
    (hkind : token.kind = .number) :
    ∃ value, Number.read? token.text = some value ∧ value ≠ .nan := by
  have hend : token.kind ≠ .endOfInput := by
    rw [hkind]
    decide
  obtain ⟨_, hlexeme⟩ := exists_lexeme_of_mem_tokenize h htoken hend
  rw [Token.content, hkind] at hlexeme
  exact exists_read?_of_lexeme hlexeme

/-- A number that cannot be read was in the list: the end of the input is none. -/
theorem exists_of_invalidNumber {e : SyntaxError} {literal : String} (h : parse tokens = .error e)
    (hfault : e.fault = .invalidNumber literal) :
    ∃ token ∈ tokens, token.kind = .number ∧ Number.read? token.text = none := by
  have hquotes := quotes_of_parse_error h
  rw [SyntaxError.Quotes, hfault] at hquotes
  obtain ⟨token, htoken, hkind, -, hread⟩ := hquotes
  rcases List.mem_cons.mp htoken with rfl | htoken
  · rw [Cursor.finish_kind] at hkind
    cases hkind
  · exact ⟨token, htoken, hkind, hread⟩

/-- What is said to be missing is no word that begins a construct. -/
theorem mem_expectations_of_parse_error {e : SyntaxError} {message : String}
    (h : parse tokens = .error e) (hfault : e.fault = .expected message) :
    message ∈ expectations := by
  have hquotes := quotes_of_parse_error h
  rwa [SyntaxError.Quotes, hfault] at hquotes

end

/-- **Some faults cannot come from a source text, and some cannot come at all.** The tokens of a source
text are of no skipped kind, the last of them and no other ends the input, and every number token stands
for a number that is not `nan`; so no syntax error behind the lexer is about the text of a number. And
whatever the list of tokens is, no syntax error misses the word or the name that begins a construct. -/
theorem unreachable_faults :
    (∀ source tokens, tokenize source = .ok tokens →
      (∀ token ∈ tokens,
        token.kind ≠ .comment ∧ token.kind ≠ .newline ∧ token.kind ≠ .blank) ∧
      (∃ front last, tokens = front ++ [last] ∧ last.kind = .endOfInput ∧
        ∀ token ∈ front, token.kind ≠ .endOfInput) ∧
      (∀ token ∈ tokens, token.kind = .number →
        ∃ value, value ≠ .nan ∧ ∀ c : Cursor, Reader.numberOf token c = .ok value c) ∧
      ∀ e literal, parse tokens = .error e → e.fault ≠ .invalidNumber literal) ∧
    ∀ tokens e, parse tokens = .error e →
      ∀ message ∈ ["Expected 'do'.", "Expected 'set'.", "Expected 'if'.", "Expected 'while'.",
        "Expected identifier."], e.fault ≠ .expected message := by
  refine ⟨fun source tokens h => ⟨?_, ?_, ?_, ?_⟩, ?_⟩
  · exact fun token htoken => kind_not_skipped_of_mem_tokenize h htoken
  · obtain ⟨front, rfl, hfront⟩ := exists_of_tokenize h
    exact ⟨front, _, rfl, rfl, hfront⟩
  · intro token htoken hkind
    obtain ⟨value, hread, hvalue⟩ := exists_read?_of_mem_tokenize h htoken hkind
    refine ⟨value, hvalue, fun c => ?_⟩
    rw [Reader.numberOf_apply, hread]
  · intro e literal hparse hfault
    obtain ⟨token, htoken, hkind, hnone⟩ := exists_of_invalidNumber hparse hfault
    obtain ⟨value, hread, -⟩ := exists_read?_of_mem_tokenize h htoken hkind
    rw [hnone] at hread
    cases hread
  · intro tokens e hparse message hmessage hfault
    have hlive := mem_expectations_of_parse_error hparse hfault
    have hdead : ∀ message ∈ ["Expected 'do'.", "Expected 'set'.", "Expected 'if'.",
      "Expected 'while'.", "Expected identifier."], message ∉ expectations := by decide
    exact hdead message hmessage hlive

set_option maxRecDepth 4000 in
/-- A number may end in its point, and the statement still misses only its semicolon. Made by hand, a
list that ends behind `do` misses the name of a method, and not the word before it. -/
theorem unreachable_faults_behind_point :
    let number : Token := ⟨.number, "-0.", ⟨1, 5⟩⟩
    let tokens : List Token := [⟨.sayWord, "say", ⟨1, 1⟩⟩, number, ⟨.endOfInput, "", ⟨1, 8⟩⟩]
    let missing : SyntaxError := ⟨.missingSemicolon "say statement", ⟨1, 8⟩⟩
    let unnamed : SyntaxError := ⟨.expected "Expected method name after 'do'.", ⟨1, 1⟩⟩
    tokenize "say -0." = .ok tokens ∧
      (∃ value, value ≠ .nan ∧ ∀ c : Cursor, Reader.numberOf number c = .ok value c) ∧
      parse tokens = .error missing ∧ (∀ literal, missing.fault ≠ .invalidNumber literal) ∧
      parse [⟨.doWord, "do", ⟨1, 1⟩⟩] = .error unnamed ∧
      unnamed.fault ≠ .expected "Expected 'do'." := by
  have hmissing : parse
      [⟨.sayWord, "say", ⟨1, 1⟩⟩, ⟨.number, "-0.", ⟨1, 5⟩⟩, ⟨.endOfInput, "", ⟨1, 8⟩⟩] =
      .error ⟨.missingSemicolon "say statement", ⟨1, 8⟩⟩ := rfl
  intro number tokens missing unnamed
  have htokens : tokenize "say -0." = .ok tokens := by decide +kernel
  have hunnamed : parse [⟨.doWord, "do", ⟨1, 1⟩⟩] = .error unnamed := rfl
  obtain ⟨-, -, hnumbers, hfaults⟩ := unreachable_faults.1 _ _ htokens
  refine ⟨htokens, hnumbers number (by simp [tokens]) rfl, hmissing, ?_, hunnamed, ?_⟩
  · exact fun literal => hfaults missing literal hmissing
  · exact unreachable_faults.2 _ _ hunnamed _ (by simp)

-- Only a list made by hand holds a number token whose text is no number.
example : parse [⟨.sayWord, "say", ⟨1, 1⟩⟩, ⟨.number, "7x", ⟨1, 5⟩⟩, ⟨.semicolon, ";", ⟨1, 7⟩⟩] =
    .error ⟨.invalidNumber "7x", ⟨1, 5⟩⟩ := rfl

end Parlance
