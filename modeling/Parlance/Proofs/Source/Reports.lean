import Parlance.Proofs.Dialogue.Turns
import Parlance.Proofs.Program.Quoting
import Parlance.Proofs.Source.ErrorPlaces
import Parlance.Proofs.Token.Joining
import Parlance.Proofs.Token.Spelling

/-!
# Reports on one line

A dialogue reports every failure on a line of its own. A report is made of fixed wordings, numbers, and
what it quotes of the source: a character that no lexeme begins with, the text of a token, the name of a
variable or a method. A line end among these would break the report into several lines.

Of all that can be quoted only the contents of a text literal can hold one, and a literal is quoted in
one case alone, where a statement should begin. So a report is one line unless it is about such a literal
(`report_breaks_only_in_literal`), and there it is not: a literal is quoted as what it stands for.
-/

namespace Parlance

/-! ## Texts on one line -/

/-- A text is one line if both of its parts are. -/
theorem isSingleLine_append (first second : String) :
    isSingleLine (first ++ second) = (isSingleLine first && isSingleLine second) := by
  unfold isSingleLine
  rw [String.toList_append, List.contains_append, Bool.not_or]

/-- A text is one line if no line end stands in it. -/
theorem isSingleLine_iff {text : String} : isSingleLine text = true ↔ '\n' ∉ text.toList := by
  simp [isSingleLine]

theorem isSingleLine_empty : isSingleLine "" = true := by decide

/-- A number is written in one line. -/
theorem isSingleLine_toString (n : Nat) : isSingleLine (toString n) = true := by
  rw [isSingleLine_iff, Nat.toString_eq_ofList_toDigits, String.toList_ofList]
  intro hmem
  have hdigit := Nat.isDigit_of_mem_toDigits (by decide) (Nat.le_refl 10) hmem
  exact absurd hdigit (by decide)

/-- A place is given on the same line. -/
theorem isSingleLine_report {Fault : Type} (wording : Fault → String) (error : Located Fault) :
    isSingleLine (error.report wording) = isSingleLine (wording error.fault) := by
  have hline : isSingleLine " (line " = true := by decide
  have hcolumn : isSingleLine ", col " = true := by decide
  have hclose : isSingleLine ")" = true := by decide
  unfold Located.report Position.suffix
  simp only [isSingleLine_append, isSingleLine_toString, hline, hcolumn, hclose, Bool.and_true]

/-- Between fixed words, only what is quoted matters. -/
theorem isSingleLine_between {before behind : String} (hbefore : isSingleLine before = true)
    (hbehind : isSingleLine behind = true) (quoted : String) :
    isSingleLine (before ++ quoted ++ behind) = isSingleLine quoted := by
  rw [isSingleLine_append, isSingleLine_append, hbefore, hbehind, Bool.true_and, Bool.and_true]

theorem isSingleLine_description (kind : TokenKind) : isSingleLine kind.description = true := by
  cases kind <;> decide

theorem isSingleLine_methodName (method : Method) : isSingleLine method.name = true := by
  cases method <;> decide

theorem isSingleLine_streamFault (fault : StreamFault) : isSingleLine fault.message = true := by
  cases fault <;> decide

/-- A token is quoted in one line if its text is one. -/
theorem isSingleLine_token_description {token : Token} (h : isSingleLine token.text = true) :
    isSingleLine token.description = true := by
  by_cases hempty : token.text.isEmpty = true
  · rw [Token.description, if_pos hempty]
    exact isSingleLine_description token.kind
  · rwa [Token.description, if_neg hempty]

/-! ## What the lexer gives -/

namespace Lexer

/-- Only a text literal stands for a line end. -/
theorem Lexeme.single_line {lexeme : List Char} {content : TokenKind × String}
    (h : Lexeme lexeme (some content)) (hkind : content.1 ≠ .text) :
    isSingleLine content.2 = true := by
  cases h with
  | @mark c kind hmark =>
    have hmarks : ∀ entry ∈ marks, isSingleLine (String.ofList [entry.1]) = true := by decide
    exact hmarks (c, kind) hmark
  | @reserved word kind hword =>
    have hwords : ∀ entry ∈ reservedWords, isSingleLine entry.1 = true := by decide
    exact hwords (word, kind) hword
  | identifier hname _ =>
    rw [isSingleLine_iff, String.toList_ofList]
    exact not_mem_of_nameShape hname (by decide) (by decide)
  | unsigned hnumber =>
    rw [isSingleLine_iff, String.toList_ofList]
    exact not_mem_of_unsignedShape hnumber (by decide) (by decide)
  | negative hnumber =>
    rw [isSingleLine_iff, String.toList_ofList, List.mem_cons, not_or]
    exact ⟨by decide, not_mem_of_unsignedShape hnumber (by decide) (by decide)⟩
  | quoted _ => exact absurd rfl hkind

end Lexer

open Lexer

/-- Only the content of a literal can hold a line end. -/
theorem isSingleLine_text_of_mem_tokenize {source : String} {tokens : List Token} {token : Token}
    (h : tokenize source = .ok tokens) (htoken : token ∈ tokens) (hkind : token.kind ≠ .text) :
    isSingleLine token.text = true := by
  by_cases hend : token.kind = .endOfInput
  · obtain ⟨front, rfl, hfront⟩ := exists_of_tokenize h
    rcases List.mem_append.mp htoken with hmem | hmem
    · exact absurd hend (hfront token hmem)
    · rw [List.mem_singleton.mp hmem]
      exact isSingleLine_empty
  · obtain ⟨_, hlexeme⟩ := exists_lexeme_of_mem_tokenize h htoken hend
    exact hlexeme.single_line hkind

/-- A character that is refused is quoted in one line, unless it is a line end. -/
theorem isSingleLine_refusal {c : Char} (hc : c ≠ '\n') : isSingleLine (refusal c).wording = true := by
  unfold refusal
  by_cases hquote : c = '"'
  · rw [if_pos hquote]
    decide
  rw [if_neg hquote]
  by_cases hminus : c = '-'
  · rw [if_pos hminus]
    decide
  rw [if_neg hminus]
  have hquoted : isSingleLine c.toString = true := by
    rw [isSingleLine_iff, Char.toString_eq_singleton, String.toList_singleton, List.mem_singleton]
    exact hc.symm
  exact (isSingleLine_between (by decide) (by decide) c.toString).trans hquoted

/-- A line end is a lexeme, so it is never the character that is refused. -/
theorem isSingleLine_of_tokenize_error {source : String} {e : LexicalError}
    (h : tokenize source = .error e) : isSingleLine e.fault.wording = true := by
  obtain ⟨cuts, reached, rest, -, -, hrest, houtcome⟩ := tokenize_eq_outcome source
  rw [houtcome] at h
  cases rest with
  | nil => cases h
  | cons c cs =>
    rw [outcome, Except.error.injEq] at h
    rw [← h]
    apply isSingleLine_refusal
    rintro rfl
    exact hrest .lineEnd ⟨cs, rfl⟩

/-! ## What a syntax error quotes -/

/-- What the wording of a syntax fault quotes. -/
def SyntaxFault.quotation : SyntaxFault → String
  | unexpectedToken description => description
  | unexpectedInExpression description => description
  | expected message => message
  | missingSemicolon context => context
  | standaloneIdentifier name => name
  | invalidNumber literal => literal
  | expectedCallAfterSet => ""
  | expectedBlock keyword => keyword
  | unclosedBlock => ""

/-- The wording of a syntax fault breaks where its quotation does, and nowhere else. -/
theorem SyntaxFault.isSingleLine_wording (fault : SyntaxFault) :
    isSingleLine fault.wording = isSingleLine fault.quotation := by
  cases fault with
  | unexpectedToken description => exact isSingleLine_between (by decide) (by decide) description
  | unexpectedInExpression description =>
    exact isSingleLine_between (by decide) (by decide) description
  | expected message => rfl
  | missingSemicolon context => exact isSingleLine_between (by decide) (by decide) context
  | standaloneIdentifier name => exact isSingleLine_between (by decide) (by decide) name
  | invalidNumber literal => exact isSingleLine_between (by decide) (by decide) literal
  | expectedCallAfterSet => decide
  | expectedBlock keyword => exact isSingleLine_between (by decide) (by decide) keyword
  | unclosedBlock => decide

/-- A syntax error is on one line, or it is about a text literal where a statement should begin. -/
theorem isSingleLine_or_literal {source : String} {tokens : List Token} {e : SyntaxError}
    (htokens : tokenize source = .ok tokens) (h : parse tokens = .error e) :
    isSingleLine e.fault.quotation = true ∨ ∃ token ∈ tokens, token.kind = .text ∧
      e = ⟨.unexpectedToken token.text, token.position⟩ := by
  have hquotes : e.Quotes tokens := by
    obtain ⟨front, rfl, -⟩ := exists_of_tokenize htokens
    exact quotes_of_parse (List.mem_append_right _ (List.mem_singleton_self _)) rfl h
  have htext : ∀ {token : Token} {kind : TokenKind}, token ∈ tokens → token.kind = kind →
      kind ≠ .text → isSingleLine token.text = true := by
    rintro token kind htoken rfl hkind
    exact isSingleLine_text_of_mem_tokenize htokens htoken hkind
  obtain ⟨fault, position⟩ := e
  cases fault with
  | unexpectedToken description =>
    obtain ⟨token, htoken, rfl, rfl⟩ := hquotes
    by_cases hkind : token.kind = .text
    · by_cases hempty : token.text.isEmpty = true
      · refine .inl ?_
        rw [SyntaxFault.quotation, Token.description, if_pos hempty]
        exact isSingleLine_description token.kind
      · refine .inr ⟨token, htoken, hkind, ?_⟩
        rw [Token.description, if_neg hempty]
    · exact .inl (isSingleLine_token_description (htext htoken rfl hkind))
  | unexpectedInExpression description =>
    obtain ⟨token, htoken, hkind, rfl⟩ := hquotes
    exact .inl (isSingleLine_token_description (htext htoken rfl hkind))
  | expected message =>
    have hlines : ∀ message ∈ expectations, isSingleLine message = true := by decide
    exact .inl (hlines message hquotes)
  | missingSemicolon context => exact .inl hquotes
  | standaloneIdentifier name =>
    obtain ⟨token, htoken, hkind, rfl⟩ := hquotes
    exact .inl (htext htoken hkind (by decide))
  | invalidNumber literal =>
    obtain ⟨token, htoken, hkind, rfl, -⟩ := hquotes
    exact .inl (htext htoken hkind (by decide))
  | expectedCallAfterSet => exact .inl isSingleLine_empty
  | expectedBlock keyword => exact .inl hquotes
  | unclosedBlock => exact .inl isSingleLine_empty

/-! ## What a runtime error quotes -/

/-- What the wording of a runtime fault quotes. -/
def RuntimeFault.quotation : RuntimeFault → String
  | unknownVariable name => name
  | unknownMethod name => name
  | argumentCount method _ _ => method
  | stream fault => fault.message
  | expectedNumber | expectedText | divisionByZero | inputExhausted => ""

/-- The wording of a runtime fault breaks where its quotation does, and nowhere else. -/
theorem RuntimeFault.isSingleLine_wording (fault : RuntimeFault) :
    isSingleLine fault.wording = isSingleLine fault.quotation := by
  cases fault with
  | unknownVariable name => exact isSingleLine_between (by decide) (by decide) name
  | unknownMethod name => exact isSingleLine_between (by decide) (by decide) name
  | argumentCount method expected found =>
    have hbefore : isSingleLine "Method '" = true := by decide
    have hmiddle : isSingleLine "' expects " = true := by decide
    have hbehind : isSingleLine " argument(s), got " = true := by decide
    have hfinish : isSingleLine "." = true := by decide
    unfold wording quotation
    simp only [isSingleLine_append, isSingleLine_toString, hbefore, hmiddle, hbehind, hfinish,
      Bool.true_and, Bool.and_true]
  | expectedNumber => decide
  | expectedText => decide
  | divisionByZero => decide
  | inputExhausted => decide
  | stream fault => exact isSingleLine_between (by decide) (by decide) fault.message

/-- A fault that is about the arguments of a method names one of the methods there are. -/
def RuntimeFault.NamesMethod : RuntimeFault → Prop
  | argumentCount method _ _ => ∃ known : Method, method = known.name
  | _ => True

open Run (FailsWithin)

/-- The number of arguments is complained about under the name of a method. -/
theorem Method.invoke_namesMethod (name : String) (values : List Value) (position : Position) :
    FailsWithin (·.fault.NamesMethod) (invoke name values position) := by
  unfold invoke
  split
  · rename_i method _
    refine apply_failsWithin ?_ values
    rintro (_ | _ | _ | _ | _ | _ | _ | _) hfault
    case argumentCount => exact ⟨method, hfault⟩
    all_goals trivial
  · exact .fail trivial

/-- In a whole program, too, the number of arguments is complained about under the name of a method. -/
theorem executeAll_namesMethod (rounds : Nat) (program : Program) :
    FailsWithin (·.fault.NamesMethod) (executeAll rounds program) := by
  refine executeAll_has (FailsWithin.sequential _) rounds program fun part _ => ?_
  cases part with
  | reference start name => exact .lookup trivial
  | target name => exact .assign name
  | say start => exact fun text => .console fun _ => trivial
  | call start name => exact fun values => Method.invoke_namesMethod name values start.position

/-- A runtime error is on one line: it quotes names of the source, and names of methods. -/
theorem isSingleLine_of_run {source : String} {tokens : List Token} {program : Program}
    {m k : Machine} {rounds : Nat} {e : RuntimeError} (htokens : tokenize source = .ok tokens)
    (hprogram : parse tokens = .ok program)
    (hrun : m.run rounds program = (.failed (.runtime e), k)) :
    isSingleLine e.fault.quotation = true := by
  obtain ⟨i, token, htoken, -, hblames⟩ := Machine.blamedIn_of_run hprogram hrun
  have hmethod : e.fault.NamesMethod :=
    executeAll_namesMethod rounds program m k e (Machine.run_eq_failed.mp hrun)
  have hname : ∀ {j : Nat} {t : Token}, tokens[j]? = some t → t.kind = .identifier →
      isSingleLine t.text = true := by
    intro j t ht hkind
    exact isSingleLine_text_of_mem_tokenize htokens (List.mem_of_getElem? ht) (by simp [hkind])
  generalize e.fault = fault at hblames hmethod ⊢
  cases fault with
  | unknownVariable name =>
    obtain ⟨hkind, rfl⟩ := hblames
    exact hname htoken hkind
  | unknownMethod name =>
    obtain ⟨-, called, hcalled, hkind, rfl⟩ := hblames
    exact hname hcalled hkind
  | argumentCount method expected found =>
    obtain ⟨known, rfl⟩ := hmethod
    exact isSingleLine_methodName known
  | stream fault => exact isSingleLine_streamFault fault
  | expectedNumber | expectedText | divisionByZero | inputExhausted => exact isSingleLine_empty

/-! ## Reports -/

/-- A failure quotes a text literal of the source that holds a line end. -/
def Failure.QuotesBrokenLiteral (source : String) (failure : Failure) : Prop :=
  ∃ tokens token, tokenize source = .ok tokens ∧ token ∈ tokens ∧ token.kind = .text ∧
    isSingleLine token.text = false ∧
      failure = .grammatical ⟨.unexpectedToken token.text, token.position⟩

namespace Machine

/-- A program that is run fails while running. -/
theorem exists_runtime_of_run {program : Program} {m k : Machine} {rounds : Nat} {failure : Failure}
    (h : m.run rounds program = (.failed failure, k)) : ∃ e, failure = .runtime e := by
  unfold run at h
  split at h <;> cases h
  exact ⟨_, rfl⟩

/-- A source text fails in one of three stages. -/
theorem Ends.failed_cases {source : String} {m k : Machine} {failure : Failure}
    (h : m.Ends source (.failed failure) k) :
    (∃ e, failure = .lexical e ∧ tokenize source = .error e) ∨
      ∃ tokens, tokenize source = .ok tokens ∧
        ((∃ e, failure = .grammatical e ∧ parse tokens = .error e) ∨
          ∃ program rounds e, failure = .runtime e ∧ parse tokens = .ok program ∧
            m.run rounds program = (.failed (.runtime e), k)) := by
  obtain ⟨-, rounds, hrun⟩ := h
  unfold runSource Program.ofSource at hrun
  cases htokens : tokenize source with
  | error e =>
    rw [htokens] at hrun
    cases hrun
    exact .inl ⟨e, rfl, rfl⟩
  | ok tokens =>
    refine .inr ⟨tokens, rfl, ?_⟩
    rw [htokens] at hrun
    dsimp only at hrun
    cases hparse : parse tokens with
    | error e =>
      rw [hparse] at hrun
      cases hrun
      exact .inl ⟨e, rfl, rfl⟩
    | ok program =>
      rw [hparse] at hrun
      obtain ⟨e, rfl⟩ := exists_runtime_of_run hrun
      exact .inr ⟨program, rounds, e, rfl, rfl, hrun⟩

/-- **A report is one line unless it quotes a literal.** Where a source text fails, the dialogue writes
one text and a line end behind it. That text is a single line in every case but one: a statement begins
with a text literal, and what the literal stands for holds a line end. -/
theorem report_breaks_only_in_literal {source : String} {m k : Machine} {failure : Failure}
    (h : m.Ends source (.failed failure) k) :
    (isSingleLine failure.message = false ↔ failure.QuotesBrokenLiteral source) ∧
    ∀ session : Session, session.errors.limit = none →
      ∃ (line : String) (after : Session), Dialogue.report failure.message session = .ok () after ∧
        after.errors.written = session.errors.written ++ (line ++ "\n").toUTF8 ∧
        (isSingleLine line = false ↔ failure.QuotesBrokenLiteral source) := by
  have hmessage : isSingleLine failure.message = false ↔ failure.QuotesBrokenLiteral source := by
    constructor
    · intro hbroken
      rcases h.failed_cases with ⟨e, rfl, htokens⟩ | ⟨tokens, htokens, hlater⟩
      · rw [Failure.message, LexicalError.message, isSingleLine_report,
          isSingleLine_of_tokenize_error htokens] at hbroken
        cases hbroken
      rcases hlater with ⟨e, rfl, hparse⟩ | ⟨program, rounds, e, rfl, hparse, hrun⟩
      · rw [Failure.message, SyntaxError.message, isSingleLine_report,
          SyntaxFault.isSingleLine_wording] at hbroken
        rcases isSingleLine_or_literal htokens hparse with hsingle | ⟨token, htoken, hkind, rfl⟩
        · rw [hsingle] at hbroken
          cases hbroken
        · exact ⟨tokens, token, htokens, htoken, hkind, hbroken, rfl⟩
      · rw [Failure.message, RuntimeError.message, isSingleLine_report,
          RuntimeFault.isSingleLine_wording, isSingleLine_of_run htokens hparse hrun] at hbroken
        cases hbroken
    · rintro ⟨tokens, token, -, -, -, hbroken, rfl⟩
      rw [Failure.message, SyntaxError.message, isSingleLine_report,
        SyntaxFault.isSingleLine_wording]
      exact hbroken
  refine ⟨hmessage, fun session hlimit => ?_⟩
  obtain ⟨machine, errors, buffer⟩ := session
  have hfixed : isSingleLine "M# error: " = true := by decide
  refine ⟨"M# error: " ++ failure.message, _, Dialogue.report_of_unlimited hlimit _ _ _, ?_, ?_⟩
  · rw [Dialogue.reported_singleton]
    rfl
  · rw [isSingleLine_append, hfixed, Bool.true_and]
    exact hmessage

set_option maxRecDepth 4000 in
/-- A statement that is a literal with an escaped line end is reported on two lines. -/
theorem report_breaks_in_escaped_lineEnd :
    let m := Machine.fresh ⟨.ofBytes [], .empty⟩
    let source := "\"a\\nb\";"
    let failure := Failure.grammatical ⟨.unexpectedToken "a\nb", ⟨1, 1⟩⟩
    m.Ends source (.failed failure) m ∧ isSingleLine failure.message = false ∧
      failure.message = "Unexpected token 'a\nb'. (line 1, col 1)" := by
  intro m source failure
  have htokens : tokenize source = .ok [⟨.text, "a\nb", ⟨1, 1⟩⟩, ⟨.semicolon, ";", ⟨1, 7⟩⟩,
      ⟨.endOfInput, "", ⟨1, 8⟩⟩] := by decide +kernel
  have hends : m.Ends source (.failed failure) m := by
    refine ⟨by decide, 0, ?_⟩
    rw [runSource, Program.ofSource, htokens]
    rfl
  refine ⟨hends, ?_, by decide⟩
  apply (report_breaks_only_in_literal hends).1.mpr
  exact ⟨_, _, htokens, List.mem_cons_self, rfl, by decide, rfl⟩

end Machine

end Parlance
