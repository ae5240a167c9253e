import Parlance.Proofs.Run.Relocation
import Parlance.Proofs.Token.Joining

/-!
# One text or two

Two source texts that are programs each by itself are a program when one is written below the other:
the statements of both in order, with the places of the second lowered (`Program.ofSource_append`).
Nothing of the second text goes on with the last statement of the first, since a statement is closed
by a semicolon or a brace and no statement begins with `else`; here this is read off the grammar,
where the spellings of two lists of statements make up a spelling of both.

Carrying out the statements of both in order is carrying out the first text and, when it has come to
its end, the second. `ends_joined_iff` puts this together.
-/

namespace Parlance

open Reader Run

/-! ## Statements of two texts -/

theorem statementsSpelled_append {body others : List Statement} {front back : List Token}
    (hbody : StatementsSpelled body front) (hothers : StatementsSpelled others back) :
    StatementsSpelled (body ++ others) (front ++ back) := by
  induction body generalizing front with
  | nil =>
    cases statementsSpelled_nil_iff.mp hbody
    exact hothers
  | cons first rest ih =>
    obtain ⟨first', rest', hfirst, hrest, rfl⟩ := statementsSpelled_cons_iff.mp hbody
    exact statementsSpelled_cons_iff.mpr
      ⟨first', rest' ++ back, hfirst, ih hrest, List.append_assoc _ _ _⟩

/-- Behind the tokens of a program, another program is read on. -/
theorem parse_append {front others : List Token} {last : Token} {program rest : Program}
    (hfront : ∀ token ∈ front, token.kind ≠ .endOfInput) (hlast : last.kind = .endOfInput)
    (hothers : others ≠ []) (hprogram : parse (front ++ [last]) = .ok program)
    (hrest : parse others = .ok rest) : parse (front ++ others) = .ok (program ++ rest) := by
  rw [parse_eq_ok_iff, Cursor.ofTokens_append hfront (List.cons_ne_nil _ _),
    Cursor.ahead_prepend] at hprogram
  have hend : (Cursor.ofTokens [last]).ahead = [] := by simp [Cursor.ofTokens, hlast]
  rw [hend, List.append_nil] at hprogram
  rw [parse_eq_ok_iff] at hrest
  rw [parse_eq_ok_iff, Cursor.ofTokens_append hfront hothers, Cursor.ahead_prepend]
  exact statementsSpelled_append hprogram hrest

/-! ## Programs of two texts -/

variable {first second : String} {program rest : Program}

/-- A source text behind whole lines is the same program some lines lower. -/
theorem Program.ofSource_append
    (hlines : first.toList = [] ∨ first.toList.getLast? = some '\n')
    (hfirst : Program.ofSource first = .ok program) (hsecond : Program.ofSource second = .ok rest) :
    Program.ofSource (first ++ second) =
      .ok (program ++ rest.relocate (.below (first.toList.count '\n'))) := by
  obtain ⟨tokens, htokens, hprogram⟩ := Program.ofSource_eq_ok.mp hfirst
  obtain ⟨others, hothers, hrest⟩ := Program.ofSource_eq_ok.mp hsecond
  obtain ⟨front, rfl, hfront⟩ := exists_of_tokenize htokens
  obtain ⟨back, rfl, -⟩ := exists_of_tokenize hothers
  refine Program.ofSource_eq_ok.mpr ⟨_, tokenize_append hlines htokens hothers, ?_⟩
  refine parse_append hfront rfl (by simp) hprogram ?_
  rw [parse_relocate (by simp), hrest]
  rfl

/-- A line end behind a source text changes nothing. -/
theorem Program.ofSource_append_lineEnd (h : Program.ofSource first = .ok program) :
    Program.ofSource (first ++ "\n") = .ok program := by
  obtain ⟨tokens, htokens, hprogram⟩ := Program.ofSource_eq_ok.mp h
  obtain ⟨front, rfl, hfront⟩ := exists_of_tokenize htokens
  refine Program.ofSource_eq_ok.mpr ⟨_, tokenize_append_lineEnd htokens, ?_⟩
  have hnothing : parse [⟨.endOfInput, "", placeAfter (first ++ "\n").toList⟩] = .ok [] := rfl
  have hread := parse_append hfront rfl (List.cons_ne_nil _ _) hprogram hnothing
  rwa [List.append_nil] at hread

/-- Blanks are a program without statements. -/
theorem Program.ofSource_of_blank {source : String}
    (h : ∀ c ∈ source.toList, Text.isBlank c = true) : Program.ofSource source = .ok [] := by
  have htokens := tokenize_eq_tokensFrom source
  rw [Lexer.tokensFrom_of_blank h] at htokens
  exact Program.ofSource_eq_ok.mpr ⟨_, htokens, rfl⟩

namespace Machine

/-- A program made of two runs the first of them and, when this has come to its end, the second. -/
theorem run_append (rounds : Nat) (program rest : Program) (m : Machine) :
    m.run rounds (program ++ rest) = match m.run rounds program with
      | (.completed, middle) => middle.run rounds rest
      | interrupted => interrupted := by
  rw [run, run, Program.execute, Program.execute, executeAll_append, Sequencing.bind_apply]
  cases executeAll rounds program m with
  | ok value middle => rfl
  | error interruption middle => cases interruption <;> rfl

/-- **One text or two makes no difference.** Let two source texts be programs each by itself. Written
one below the other they come to an end on a machine exactly if the first does and, unless it fails,
the second does on the machine that the first one leaves. The machine at the end is the same, with its
variables, its output and its unread input, and so is the outcome; only an error of the second text
stands lower, by one line and as many as there are line ends in the first. -/
theorem ends_joined_iff (hfirst : Program.ofSource first = .ok program)
    (hsecond : Program.ofSource second = .ok rest) (m k : Machine) (outcome : Outcome) :
    m.Ends (first ++ "\n" ++ second) outcome k ↔
      (∃ failure, outcome = .failed failure ∧ m.Ends first outcome k) ∨
        ∃ middle result, m.Ends first .completed middle ∧ middle.Ends second result k ∧
          outcome = result.relocate (.below (1 + first.toList.count '\n')) := by
  have hlines : (first ++ "\n").toList.getLast? = some '\n' := by simp [String.toList_append]
  have hcount : (first ++ "\n").toList.count '\n' = 1 + first.toList.count '\n' := by
    simp [String.toList_append, Nat.add_comm]
  have hjoined := Program.ofSource_append (.inr hlines) (Program.ofSource_append_lineEnd hfirst)
    hsecond
  rw [hcount] at hjoined
  generalize Position.below (1 + first.toList.count '\n') = lower at hjoined ⊢
  constructor
  · intro h
    obtain ⟨hends, rounds, hrun⟩ := h
    rw [runSource_of_ok rounds m hjoined, run_append] at hrun
    cases hmiddle : m.run rounds program with
    | mk result middle =>
      have hresult : m.runSource rounds first = (result, middle) := by
        rw [runSource_of_ok rounds m hfirst, hmiddle]
      rw [hmiddle] at hrun
      cases result with
      | completed =>
        dsimp only at hrun
        rw [run_relocate, Prod.mk.injEq] at hrun
        obtain ⟨rfl, rfl⟩ := hrun
        refine .inr ⟨middle, (middle.run rounds rest).1, ⟨by simp, rounds, hresult⟩, ⟨?_, rounds, ?_⟩,
          rfl⟩
        · intro hcut
          rw [hcut] at hends
          exact hends rfl
        · rw [runSource_of_ok rounds middle hsecond]
      | failed failure =>
        cases hrun
        exact .inl ⟨failure, rfl, by simp, rounds, hresult⟩
      | unfinished =>
        cases hrun
        exact absurd rfl hends
  · rintro (⟨failure, rfl, hends, rounds, hrun⟩ |
      ⟨middle, result, ⟨hends, few, hfew⟩, ⟨hends', many, hmany⟩, rfl⟩)
    · refine ⟨hends, rounds, ?_⟩
      rw [runSource_of_ok rounds m hfirst] at hrun
      rw [runSource_of_ok rounds m hjoined, run_append, hrun]
    · -- The larger number of rounds is enough for both texts.
      rw [runSource_of_ok few m hfirst] at hfew
      rw [runSource_of_ok many middle hsecond] at hmany
      have hfirst' : m.run (max few many) program = (.completed, middle) := by
        rw [run_mono (Nat.le_max_left few many) (by rwa [hfew]), hfew]
      have hsecond' : middle.run (max few many) rest = (result, k) := by
        rw [run_mono (Nat.le_max_right few many) (by rwa [hmany]), hmany]
      refine ⟨?_, max few many, ?_⟩
      · cases result with
        | unfinished => exact absurd rfl hends'
        | completed => simp [Outcome.relocate]
        | failed failure => simp [Outcome.relocate]
      · rw [runSource_of_ok _ m hjoined, run_append, hfirst']
        dsimp only
        rw [run_relocate, hsecond']

set_option maxRecDepth 4000 in
/-- An unknown variable in the second text is reported two lines lower behind a text of two lines. -/
theorem ends_joined_lower_error :
    let m := Machine.fresh ⟨.ofBytes [], .empty⟩
    ∃ middle k, m.Ends "x means\n\"a\";" .completed middle ∧
      middle.Ends "say x; say y;" (.failed (.runtime ⟨.unknownVariable "y", ⟨1, 12⟩⟩)) k ∧
        m.Ends "x means\n\"a\";\nsay x; say y;"
          (.failed (.runtime ⟨.unknownVariable "y", ⟨3, 12⟩⟩)) k := by
  intro m
  have hfirst : Program.ofSource "x means\n\"a\";" =
      .ok [.assignText ⟨.identifier, "x", ⟨1, 1⟩⟩ "x" "a"] := by
    have htokens : tokenize "x means\n\"a\";" = .ok [⟨.identifier, "x", ⟨1, 1⟩⟩,
        ⟨.meansWord, "means", ⟨1, 3⟩⟩, ⟨.text, "a", ⟨2, 1⟩⟩, ⟨.semicolon, ";", ⟨2, 4⟩⟩,
        ⟨.endOfInput, "", ⟨2, 5⟩⟩] := by decide +kernel
    exact Program.ofSource_eq_ok.mpr ⟨_, htokens, rfl⟩
  have hsecond : Program.ofSource "say x; say y;" =
      .ok [.say ⟨.sayWord, "say", ⟨1, 1⟩⟩ (.reference ⟨.identifier, "x", ⟨1, 5⟩⟩ "x"),
        .say ⟨.sayWord, "say", ⟨1, 8⟩⟩ (.reference ⟨.identifier, "y", ⟨1, 12⟩⟩ "y")] := by
    have htokens : tokenize "say x; say y;" = .ok [⟨.sayWord, "say", ⟨1, 1⟩⟩,
        ⟨.identifier, "x", ⟨1, 5⟩⟩, ⟨.semicolon, ";", ⟨1, 6⟩⟩, ⟨.sayWord, "say", ⟨1, 8⟩⟩,
        ⟨.identifier, "y", ⟨1, 12⟩⟩, ⟨.semicolon, ";", ⟨1, 13⟩⟩,
        ⟨.endOfInput, "", ⟨1, 14⟩⟩] := by decide +kernel
    exact Program.ofSource_eq_ok.mpr ⟨_, htokens, rfl⟩
  let middle : Machine := ⟨⟨[("x", .text "a")]⟩, m.streams⟩
  let k : Machine := ⟨middle.environment, ⟨.ofBytes [], ⟨"a\n".toUTF8, none, false⟩⟩⟩
  have hcompleted : m.Ends "x means\n\"a\";" .completed middle := by
    refine ⟨by decide, 0, ?_⟩
    rw [runSource_of_ok 0 m hfirst]
    rfl
  have hfailed :
      middle.Ends "say x; say y;" (.failed (.runtime ⟨.unknownVariable "y", ⟨1, 12⟩⟩)) k := by
    refine ⟨by decide, 0, ?_⟩
    rw [runSource_of_ok 0 middle hsecond]
    rfl
  refine ⟨middle, k, hcompleted, hfailed, ?_⟩
  exact (ends_joined_iff hfirst hsecond m k _).mpr (.inr ⟨middle, _, hcompleted, hfailed, rfl⟩)

end Machine

end Parlance
