import Parlance.Proofs.Run.Relocation
import Parlance.Proofs.Token.Joining

/-!
# Layout never matters

Two source texts with the same tokens may differ in their blanks, line ends and comments, and in how
their text literals are escaped. All that is left of this behind the lexer are the places of the
tokens. With every place forgotten the two lists of tokens are one list, and so are the two programs;
a program with its places forgotten runs as it does with them, up to the place of a failure.

`layout_never_matters` is the comparison of the two runs. A syntax error is compared by the index of
its token: reading stops behind the same number of tokens in both lists.
-/

namespace Parlance

open Reader

/-! ## Outcomes up to places -/

/-- Two failures differ in their places at most. -/
def Failure.Agrees : Failure → Failure → Prop
  | .lexical e, .lexical e' => e.fault = e'.fault
  | .grammatical e, .grammatical e' => e.fault = e'.fault
  | .runtime e, .runtime e' => e.fault = e'.fault
  | _, _ => False

/-- Two outcomes differ in the places of their failures at most. -/
def Outcome.Agrees : Outcome → Outcome → Prop
  | .completed, .completed => True
  | .failed failure, .failed failure' => failure.Agrees failure'
  | .unfinished, .unfinished => True
  | _, _ => False

/-- The move that forgets all places. -/
def Position.forget : Position → Position := fun _ => .start

/-- Failures that are one when their places are forgotten agree. -/
theorem Failure.agrees_of_forget {failure failure' : Failure}
    (h : failure.relocate .forget = failure'.relocate .forget) : failure.Agrees failure' := by
  cases failure <;> cases failure' <;> simp_all [Failure.relocate, Located.relocate, Failure.Agrees]

/-- Outcomes that are one when their places are forgotten agree. -/
theorem Outcome.agrees_of_forget {outcome outcome' : Outcome}
    (h : outcome.relocate .forget = outcome'.relocate .forget) : outcome.Agrees outcome' := by
  cases outcome <;> cases outcome' <;> simp_all [Outcome.relocate, Outcome.Agrees]
  exact Failure.agrees_of_forget h

/-- Moving places does not decide whether a run is cut short. -/
theorem Outcome.relocate_eq_unfinished {move : Position → Position} {outcome : Outcome} :
    outcome.relocate move = .unfinished ↔ outcome = .unfinished := by
  cases outcome <;> simp [Outcome.relocate]

/-! ## Tokens without places -/

/-- Without places, tokens of the same kinds and texts are the same. -/
theorem map_forget_of_content {tokens tokens' : List Token}
    (h : tokens.map Token.content = tokens'.map Token.content) :
    tokens.map (Token.relocate .forget) = tokens'.map (Token.relocate .forget) := by
  have hforget : Token.relocate .forget =
      (fun content : TokenKind × String => ⟨content.1, content.2, .start⟩) ∘ Token.content := rfl
  rw [hforget, ← List.map_map, ← List.map_map, h]

/-- The index of the token that a syntax error stands at. -/
def errorIndex (tokens : List Token) (e : SyntaxError) : Nat :=
  if e.fault.isLate then tokensConsumed tokens - 1 else tokensConsumed tokens

/-- In a list with an end of the input, a syntax error stands at one of its tokens. -/
theorem exists_token_of_parse_error {front : List Token} {last : Token} {e : SyntaxError}
    (hlast : last.kind = .endOfInput) (h : parse (front ++ [last]) = .error e) :
    ∃ token, (front ++ [last])[errorIndex (front ++ [last]) e]? = some token ∧
      e.position = token.position := by
  obtain ⟨consumed, k, -, hconsumed, hlength, hplaced, -⟩ := exists_of_parse_eq_error h
  obtain ⟨htake, hkinds⟩ := Cursor.eq_take_of_ofTokens_eq_prepend hconsumed
  -- The end of the input is not consumed, so a token is left.
  have hlt : consumed.length < (front ++ [last]).length := by
    refine Nat.lt_of_not_le fun hle => hkinds last ?_ hlast
    rw [List.take_of_length_le hle] at htake
    rw [htake]
    simp
  rw [errorIndex, hlength]
  unfold SyntaxError.PlacedBy at hplaced
  split at hplaced
  · rename_i hlate
    obtain ⟨found, hfound, hposition⟩ := hplaced
    have hpos : 0 < consumed.length := List.length_pos_iff.mpr fun hnil => by simp [hnil] at hfound
    refine ⟨found, ?_, hposition⟩
    rw [List.getLast?_eq_getElem?] at hfound
    rw [if_pos hlate, ← hfound, ← List.getElem?_take_of_lt (Nat.sub_lt hpos Nat.zero_lt_one), ← htake]
  · rename_i hlate
    refine ⟨(front ++ [last])[consumed.length], by rw [if_neg hlate, List.getElem?_eq_getElem], ?_⟩
    rw [hplaced, position_peek_of_prepend hconsumed, List.getElem?_eq_getElem hlt]
    rfl

/-! ## Two layouts -/

section TwoLayouts

variable {source source' : String} {tokens tokens' : List Token}

/-- Tokens with the same contents are read as one program, places apart, and as far. -/
theorem parse_forget_of_content (h : tokenize source = .ok tokens)
    (h' : tokenize source' = .ok tokens')
    (hcontent : tokens.map Token.content = tokens'.map Token.content) :
    relocateParse .forget (parse tokens) = relocateParse .forget (parse tokens') ∧
      tokensConsumed tokens = tokensConsumed tokens' := by
  obtain ⟨front, rfl, -⟩ := exists_of_tokenize h
  obtain ⟨front', rfl, -⟩ := exists_of_tokenize h'
  have hforget := map_forget_of_content hcontent
  constructor
  · rw [← parse_relocate (by simp), hforget, parse_relocate (by simp)]
  · rw [← tokensConsumed_relocate (by simp), hforget, tokensConsumed_relocate (by simp)]

namespace Machine

/-- Round for round, two layouts do the same, up to the place of a failure. -/
theorem runSource_forget_of_content (h : tokenize source = .ok tokens)
    (h' : tokenize source' = .ok tokens')
    (hcontent : tokens.map Token.content = tokens'.map Token.content) (rounds : Nat) (m : Machine) :
    (m.runSource rounds source).1.relocate .forget =
        (m.runSource rounds source').1.relocate .forget ∧
      (m.runSource rounds source).2 = (m.runSource rounds source').2 := by
  have hparse := (parse_forget_of_content h h' hcontent).1
  unfold runSource Program.ofSource
  rw [h, h']
  dsimp only
  cases hprogram : parse tokens with
  | ok program =>
    cases hprogram' : parse tokens' with
    | ok program' =>
      rw [hprogram, hprogram'] at hparse
      have hrun : m.run rounds (program.relocate .forget) = _ := m.run_relocate rounds program
      rw [Except.ok.inj hparse, run_relocate, Prod.mk.injEq] at hrun
      exact ⟨hrun.1.symm, hrun.2.symm⟩
    | error e' =>
      rw [hprogram, hprogram'] at hparse
      cases hparse
  | error e =>
    cases hprogram' : parse tokens' with
    | ok program' =>
      rw [hprogram, hprogram'] at hparse
      cases hparse
    | error e' =>
      rw [hprogram, hprogram'] at hparse
      exact ⟨congrArg (fun error => Outcome.failed (.grammatical error)) (Except.error.inj hparse),
        rfl⟩

/-- A source with the same tokens ends in the same way, places apart. -/
theorem Ends.of_content {m k : Machine} {outcome : Outcome} (h : tokenize source = .ok tokens)
    (h' : tokenize source' = .ok tokens')
    (hcontent : tokens.map Token.content = tokens'.map Token.content)
    (hends : m.Ends source outcome k) :
    ∃ outcome', m.Ends source' outcome' k ∧ outcome.Agrees outcome' := by
  obtain ⟨hcut, rounds, hrun⟩ := hends
  obtain ⟨houtcome, hmachine⟩ := runSource_forget_of_content h h' hcontent rounds m
  rw [hrun] at houtcome hmachine
  refine ⟨(m.runSource rounds source').1, ⟨?_, rounds, ?_⟩, Outcome.agrees_of_forget houtcome⟩
  · intro hcut'
    rw [hcut'] at houtcome
    exact hcut (Outcome.relocate_eq_unfinished.mp houtcome)
  · exact Prod.ext rfl hmachine.symm

/-- A source text ends in a syntax error only if its tokens are read with this error. -/
theorem Ends.parse_error {m k : Machine} {e : SyntaxError} (h : tokenize source = .ok tokens)
    (hends : m.Ends source (.failed (.grammatical e)) k) : parse tokens = .error e := by
  obtain ⟨-, rounds, hrun⟩ := hends
  unfold runSource Program.ofSource at hrun
  rw [h] at hrun
  dsimp only at hrun
  cases hprogram : parse tokens with
  | error e' =>
    rw [hprogram] at hrun
    cases hrun
    rfl
  | ok program =>
    rw [hprogram] at hrun
    dsimp only [run] at hrun
    split at hrun <;> cases hrun

/-- **Layout never matters.** Two source texts whose tokens agree in kind and text, one by one, do the
same on every machine: one comes to an end exactly if the other does, they leave the same machine with
its variables, its output and its unread input, and their outcomes differ in the place of an error at
most. A syntax error stands at the same token of both, counted from the first. -/
theorem layout_never_matters (h : tokenize source = .ok tokens) (h' : tokenize source' = .ok tokens')
    (hcontent : tokens.map Token.content = tokens'.map Token.content) (m : Machine) :
    (m.Terminates source ↔ m.Terminates source') ∧
    ∀ {outcome outcome' : Outcome} {k k' : Machine}, m.Ends source outcome k →
      m.Ends source' outcome' k' → k = k' ∧ outcome.Agrees outcome' ∧
        ∀ e e' : SyntaxError, outcome = .failed (.grammatical e) →
          outcome' = .failed (.grammatical e') → ∃ (i : Nat) (token token' : Token),
            tokens[i]? = some token ∧ e.position = token.position ∧
              tokens'[i]? = some token' ∧ e'.position = token'.position := by
  refine ⟨⟨?_, ?_⟩, ?_⟩
  · intro hterminates
    obtain ⟨outcome, k, hends⟩ := hterminates
    obtain ⟨outcome', hends', -⟩ := hends.of_content h h' hcontent
    exact ⟨outcome', k, hends'⟩
  · intro hterminates
    obtain ⟨outcome', k, hends'⟩ := hterminates
    obtain ⟨outcome, hends, -⟩ := hends'.of_content h' h hcontent.symm
    exact ⟨outcome, k, hends⟩
  · intro outcome outcome' k k' hends hends'
    obtain ⟨other, hother, hagrees⟩ := hends.of_content h h' hcontent
    obtain ⟨rfl, rfl⟩ := hother.unique hends'
    refine ⟨rfl, hagrees, ?_⟩
    rintro e e' rfl rfl
    obtain ⟨front, rfl, -⟩ := exists_of_tokenize h
    obtain ⟨front', rfl, -⟩ := exists_of_tokenize h'
    obtain ⟨token, htoken, hposition⟩ := exists_token_of_parse_error rfl (hends.parse_error h)
    obtain ⟨token', htoken', hposition'⟩ := exists_token_of_parse_error rfl (hends'.parse_error h')
    refine ⟨_, token, token', htoken, hposition, ?_, hposition'⟩
    rw [← htoken', errorIndex, errorIndex, (parse_forget_of_content h h' hcontent).2, hagrees]

set_option maxRecDepth 4000 in
/-- A comment, line ends and another escape of the same literal: the missing expression is reported at
the sixth token of both texts, on line 1 and on line 5. -/
theorem layout_of_one_literal :
    let m := Machine.fresh ⟨.ofBytes [], .empty⟩
    let e : SyntaxError := ⟨.unexpectedInExpression ";", ⟨1, 17⟩⟩
    let e' : SyntaxError := ⟨.unexpectedInExpression ";", ⟨5, 1⟩⟩
    ∃ tokens tokens', tokenize "x means \"\\n\";say;" = .ok tokens ∧
      tokenize "x means // c\n\n\"\\\n\"; say\n;" = .ok tokens' ∧
      tokens.map Token.content = tokens'.map Token.content ∧
      m.Ends "x means \"\\n\";say;" (.failed (.grammatical e)) m ∧
      m.Ends "x means // c\n\n\"\\\n\"; say\n;" (.failed (.grammatical e')) m ∧
      ∃ (i : Nat) (token token' : Token), tokens[i]? = some token ∧ e.position = token.position ∧
        tokens'[i]? = some token' ∧ e'.position = token'.position := by
  intro m e e'
  have h : tokenize "x means \"\\n\";say;" = .ok [⟨.identifier, "x", ⟨1, 1⟩⟩,
      ⟨.meansWord, "means", ⟨1, 3⟩⟩, ⟨.text, "\n", ⟨1, 9⟩⟩, ⟨.semicolon, ";", ⟨1, 13⟩⟩,
      ⟨.sayWord, "say", ⟨1, 14⟩⟩, ⟨.semicolon, ";", ⟨1, 17⟩⟩, ⟨.endOfInput, "", ⟨1, 18⟩⟩] := by decide +kernel
  have h' : tokenize "x means // c\n\n\"\\\n\"; say\n;" = .ok [⟨.identifier, "x", ⟨1, 1⟩⟩,
      ⟨.meansWord, "means", ⟨1, 3⟩⟩, ⟨.text, "\n", ⟨3, 1⟩⟩, ⟨.semicolon, ";", ⟨4, 2⟩⟩,
      ⟨.sayWord, "say", ⟨4, 4⟩⟩, ⟨.semicolon, ";", ⟨5, 1⟩⟩, ⟨.endOfInput, "", ⟨5, 2⟩⟩] := by decide +kernel
  have hends : m.Ends "x means \"\\n\";say;" (.failed (.grammatical e)) m := by
    refine ⟨by decide, 0, ?_⟩
    rw [runSource, Program.ofSource, h]
    rfl
  have hends' : m.Ends "x means // c\n\n\"\\\n\"; say\n;" (.failed (.grammatical e')) m := by
    refine ⟨by decide, 0, ?_⟩
    rw [runSource, Program.ofSource, h']
    rfl
  refine ⟨_, _, h, h', rfl, hends, hends', ?_⟩
  exact ((layout_never_matters h h' rfl m).2 hends hends').2.2 e e' rfl rfl

end Machine

end TwoLayouts

end Parlance
