import Parlance.Proofs.Dialogue.Turns
import Parlance.Proofs.Source.Joining
import Parlance.Proofs.Stream.Lines

/-!
# A dialogue and a file

The same lines can be typed into a dialogue or kept in a file. The dialogue guesses from braces and
line ends where a submission is complete, drops blank lines and runs each submission by itself; a file
is read and run as a whole. When every guess is right, so that each submission is a program, and no
program takes a line away from the dialogue, the two agree (`converse_agrees_with_file`): the variables
at the end are the same, and the dialogue shows what the file shows, with a prompt before each line.

The argument goes line by line. The text that a dialogue has not submitted yet and the lines it has not
read yet are together the rest of the file (`exists_program_of_takes`): a submission splits its program
off, a skipped line splits off nothing, and any other line passes from the input to the buffer. With
`WritesOnly`, what the file writes for a submission is what the dialogue writes for it, on streams that
hold other things before.
-/

namespace Parlance

open Sequencing

namespace Machine

/-- Places do not keep a program from coming to its end. -/
theorem run_of_relocate {move : Position → Position} {rounds : Nat} {program : Program}
    {m k : Machine} (h : m.run rounds (program.relocate move) = (.completed, k)) :
    m.run rounds program = (.completed, k) := by
  rw [run_relocate] at h
  cases hrun : m.run rounds program with
  | mk outcome machine =>
    rw [hrun] at h
    cases outcome <;> cases h
    rfl

/-- A program made of two comes to its end when both do. -/
theorem exists_of_run_append {rounds : Nat} {program rest : Program} {m k : Machine}
    (h : m.run rounds (program ++ rest) = (.completed, k)) :
    ∃ middle, m.run rounds program = (.completed, middle) ∧
      middle.run rounds rest = (.completed, k) := by
  rw [run_eq_completed, executeAll_append, bind_eq_ok] at h
  obtain ⟨_, middle, hmiddle, hk⟩ := h
  exact ⟨middle, run_eq_completed.mpr hmiddle, run_eq_completed.mpr hk⟩

end Machine

namespace Dialogue

/-! ## Carrying out an answer -/

variable {session : Session} {line : String} {answer : Submission} {next : Buffer} {rest : Input}
  {rounds : Nat}

/-- An answer is carried out without an error: a submission runs to its end, and nothing else is done
to the machine. -/
def Carries (rounds : Nat) (answer : Submission) (m k : Machine) : Prop :=
  match answer with
  | .pending => k = m
  | .unbalanced => False
  | .ready source => m.runSource rounds source = (.completed, k)

/-- A turn prompts, reads a line and carries out the answer to it. -/
theorem turn_of_line {k : Machine} (hopen : session.machine.streams.output.Unfailing)
    (hread : session.machine.streams.input.readLine = (.line line, rest))
    (hstays : session.buffer.isBlank = true → isQuit line = false)
    (hpush : session.buffer.push line = (answer, next))
    (hcarries : Carries rounds answer (session.advance rest session.buffer.prompt).machine k) :
    turn rounds session = .ok true ⟨k, session.errors, next⟩ := by
  obtain ⟨hreact, hsilent⟩ : react rounds answer (session.machine.advance rest session.buffer.prompt) =
      (.completed, k) ∧ report? answer .completed = none := by
    cases answer with
    | pending =>
      cases hcarries
      exact ⟨rfl, rfl⟩
    | unbalanced => exact hcarries.elim
    | ready source => exact ⟨hcarries, rfl⟩
  have hturn := turn_of_answer hopen hread hstays hpush hreact nofun
    fun hreport => absurd hsilent hreport
  rwa [hsilent, Option.toList_none, reported_nil, Output.append_empty] at hturn

/-! ## Lines that make up programs -/

/-- Lines that a buffer takes without trouble: they can be typed, none of them asks to leave or closes
too many braces, nothing is left over at the end, and each submission is a program that asks for
nothing. -/
structure WellBehaved (buffer : Buffer) (lines : List String) : Prop where
  plain : ∀ line ∈ lines, PlainLine line
  balanced : .unbalanced ∉ buffer.answers lines
  finished : (buffer.after lines).isBlank = true
  stays : ∀ before line rest, lines = before ++ line :: rest →
    (buffer.after before).isBlank = true → isQuit line = false
  programs : ∀ source, .ready source ∈ buffer.answers lines →
    ∃ program, Program.ofSource source = .ok program ∧ program.asks = false

/-- Lines that behave well still do behind the first one. -/
theorem WellBehaved.tail {buffer : Buffer} {lines : List String}
    (h : WellBehaved buffer (line :: lines)) : WellBehaved (buffer.push line).2 lines where
  plain := fun other hother => h.plain other (List.mem_cons_of_mem line hother)
  balanced := fun hmem => h.balanced (List.mem_cons_of_mem _ hmem)
  finished := h.finished
  stays := fun before other rest hlines => h.stays (line :: before) other rest (by rw [hlines]; rfl)
  programs := fun source hsource => h.programs source (List.mem_cons_of_mem _ hsource)

/-- An answer does what a program does: where the program comes to its end, it has only written a text,
and the answer then does the same from the same variables on any streams whose output has no limit. -/
def CarriesOut (answer : Submission) (program : Program) : Prop :=
  ∀ (rounds : Nat) (m k : Machine), m.run rounds program = (.completed, k) →
    ∃ text : String, k.streams = m.streams.append text ∧
      ∀ streams : Streams, streams.output.limit = none →
        Carries rounds answer ⟨m.environment, streams⟩ ⟨k.environment, streams.append text⟩

theorem carriesOut_pending : CarriesOut .pending [] := by
  intro rounds m k hrun
  cases hrun
  refine ⟨"", by simp, fun streams _ => ?_⟩
  rw [Carries, Streams.append_empty]

/-- A submission that asks for nothing does in a dialogue what it does in a file. -/
theorem carriesOut_ready {source : String} {program : Program}
    (hsource : Program.ofSource source = .ok program) (hasks : program.asks = false) :
    CarriesOut (.ready source) program := by
  intro rounds m k hrun
  obtain ⟨text, hk, helsewhere⟩ := Machine.run_elsewhere hasks hrun
  refine ⟨text, hk, fun streams hlimit => ?_⟩
  rw [Carries, Machine.runSource_of_ok _ _ hsource, helsewhere streams hlimit]

/-- **One line.** What is collected and the lines to come are the rest of a file. Its program begins
with what the answer to the next line carries out, and goes on like the program of what is collected
then and the lines behind. -/
theorem exists_program_of_takes {buffer : Buffer} {later : String} {program : Program}
    (htidy : buffer.Tidy) (htakes : Buffer.Takes buffer line answer next)
    (hbalanced : answer ≠ .unbalanced)
    (hready : ∀ source, answer = .ready source →
      ∃ first, Program.ofSource source = .ok first ∧ first.asks = false)
    (hprogram : Program.ofSource (next.text ++ later) = .ok program) :
    ∃ first second : Program,
      Program.ofSource (buffer.text ++ (line ++ "\n" ++ later)) = .ok (first ++ second) ∧
        CarriesOut answer first ∧
        ∀ (rounds : Nat) (m k : Machine), m.run rounds second = (.completed, k) →
          m.run rounds program = (.completed, k) := by
  cases htakes with
  | skipped hskips =>
    obtain ⟨hblank, hline⟩ := Bool.and_eq_true_iff.mp hskips
    have hnothing : Program.ofSource (line ++ "\n") = .ok [] :=
      Program.ofSource_append_lineEnd (Program.ofSource_of_blank (List.all_eq_true.mp hline))
    have hends : (line ++ "\n").toList.getLast? = some '\n' := by simp [String.toList_append]
    have hlater : Program.ofSource later = .ok program := by rwa [String.empty_append] at hprogram
    have hjoined := Program.ofSource_append (.inr hends) hnothing hlater
    rw [htidy hblank, String.empty_append]
    exact ⟨[], _, hjoined, carriesOut_pending, fun _ _ _ => Machine.run_of_relocate⟩
  | unbalanced hskips hdepth => exact absurd rfl hbalanced
  | ready hskips hdepth hends =>
    obtain ⟨first, hfirst, hasks⟩ := hready _ rfl
    have hends : (buffer.textWith line).toList.getLast? = some '\n' := by
      simp [Buffer.textWith, String.toList_append]
    have hlater : Program.ofSource later = .ok program := by
      rwa [Buffer.empty, String.empty_append] at hprogram
    have hjoined := Program.ofSource_append (.inr hends) hfirst hlater
    rw [← String.append_assoc, ← String.append_assoc]
    exact ⟨first, _, hjoined, carriesOut_ready hfirst hasks, fun _ _ _ => Machine.run_of_relocate⟩
  | pending hskips hdepth hopen =>
    rw [← String.append_assoc, ← String.append_assoc]
    exact ⟨[], program, hprogram, carriesOut_pending, fun _ _ _ => id⟩

/-- **All lines.** The rest of a file is a program. Where it comes to its end, a dialogue that has
collected the first part of it and finds the lines behind in its input does the same: behind the
prompt before each line stands what the file writes for it. -/
theorem exists_program_of_wellBehaved {buffer : Buffer} {lines : List String} (htidy : buffer.Tidy)
    (h : WellBehaved buffer lines) :
    ∃ program, Program.ofSource (buffer.text ++ unlines lines) = .ok program ∧
      ∀ (rounds : Nat) (m k : Machine), m.run rounds program = (.completed, k) →
        ∃ echoes : List String, echoes.length = lines.length ∧
          k.streams = m.streams.append (String.join echoes) ∧
          ∀ (output errors : Output) (count : Nat), output.Unfailing → lines.length < count →
            turns rounds count ⟨⟨m.environment, .ofText (unlines lines), output⟩, errors, buffer⟩ =
              .ok () ⟨⟨k.environment, .ofText "", output.append
                (String.join (List.zipWith (· ++ ·) (buffer.prompts lines) echoes) ++ "msharp> \n")⟩,
                errors, buffer.after lines⟩ := by
  induction lines generalizing buffer with
  | nil =>
    have hblank : buffer.isBlank = true := h.finished
    refine ⟨[], ?_, ?_⟩
    · rw [htidy hblank]
      exact Program.ofSource_of_blank (by simp [unlines])
    · intro rounds m k hrun
      cases hrun
      refine ⟨[], rfl, by simp, fun output errors count hopen hcount => ?_⟩
      obtain ⟨count, rfl⟩ : ∃ n, count = n + 1 := ⟨count - 1, by omega⟩
      rw [turns, bind_of_ok (turn_at_end hopen Input.readLine_unlines_nil),
        Buffer.prompt_of_isBlank hblank]
      rfl
  | cons line rest ih =>
    have htakes := Buffer.takes_push buffer line
    obtain ⟨program, hprogram, hagrees⟩ := ih htakes.tidy h.tail
    obtain ⟨first, second, hsource, hfirst, hsecond⟩ := exists_program_of_takes htidy htakes
      (fun hanswer => h.balanced (hanswer ▸ List.mem_cons_self))
      (fun source hanswer => h.programs source (hanswer ▸ List.mem_cons_self)) hprogram
    refine ⟨first ++ second, hsource, ?_⟩
    intro rounds m k hrun
    obtain ⟨middle, hmiddle, hk⟩ := Machine.exists_of_run_append hrun
    obtain ⟨text, htext, hcarries⟩ := hfirst rounds m middle hmiddle
    obtain ⟨echoes, hlength, hechoes, hturns⟩ := hagrees rounds middle k (hsecond rounds middle k hk)
    refine ⟨text :: echoes, by simp [hlength], ?_, ?_⟩
    · rw [hechoes, htext, Streams.append_append, String.join_cons]
    · intro output errors count hopen hcount
      obtain ⟨count, rfl⟩ : ∃ n, count = n + 1 := ⟨count - 1, by omega⟩
      have hline := Input.readLine_unlines_cons (h.plain line List.mem_cons_self) rest
      have hstays : buffer.isBlank = true → isQuit line = false := h.stays [] line rest rfl
      have hturn : turn rounds
            ⟨⟨m.environment, .ofText (unlines (line :: rest)), output⟩, errors, buffer⟩ =
          .ok true ⟨⟨middle.environment, .ofText (unlines rest),
            (output.append buffer.prompt).append text⟩, errors, (buffer.push line).2⟩ :=
        turn_of_line hopen hline hstays rfl (hcarries _ hopen.unlimited)
      have hopen' := (hopen.append buffer.prompt).append text
      have hcount' : rest.length < count := by
        rw [List.length_cons] at hcount
        omega
      rw [turns, bind_of_ok hturn, if_pos rfl, hturns _ errors count hopen' hcount']
      simp only [Output.append_append, Buffer.prompts, Buffer.after, List.zipWith_cons_cons,
        String.join_cons, String.append_assoc]

/-- **A dialogue and a file agree.** Let lines be typed into a dialogue that make up whole programs,
each submitted at its own last line, none of them with a call that asks for input. If the file of these
lines runs to its end on a machine without variables, so does the dialogue: it reports nothing and
leaves the same variables. The texts that the file writes, one for each line, are shown by the dialogue
in order and complete, each behind the prompt before its line; all else it shows is its banner, and one
more prompt and a line end when the lines are over. -/
theorem converse_agrees_with_file {lines : List String} {rounds : Nat} {streams : Streams}
    {output : Output} {m : Machine} (h : WellBehaved .empty lines)
    (hfile : (Machine.fresh streams).runSource rounds (unlines lines) = (.completed, m))
    (hopen : output.Unfailing) (errors : Output) :
    ∃ (session : Session) (echoes : List String),
      converse rounds (begin (.fresh ⟨.ofText (unlines lines), output⟩) errors) = .ok () session ∧
        session.errors = errors ∧ session.machine.environment = m.environment ∧
        echoes.length = lines.length ∧ m.streams = streams.append (String.join echoes) ∧
        session.machine.streams.output = output.append (banner ++
          String.join (List.zipWith (· ++ ·) (Buffer.empty.prompts lines) echoes) ++
            "msharp> " ++ "\n") := by
  obtain ⟨program, hprogram, hagrees⟩ := exists_program_of_wellBehaved Buffer.tidy_empty h
  have hsource : Program.ofSource (unlines lines) = .ok program := by
    rwa [Buffer.empty, String.empty_append] at hprogram
  rw [Machine.runSource_of_ok _ _ hsource] at hfile
  obtain ⟨echoes, hlength, hechoes, hturns⟩ := hagrees rounds _ m hfile
  have hcount := Nat.lt_succ_of_le (Input.length_le_unread_unlines lines)
  have hlast := hturns (output.append banner) errors _ (hopen.append banner) hcount
  refine ⟨_, echoes, (converse_of_unfailing hopen errors).trans hlast, rfl, rfl, hlength, hechoes, ?_⟩
  simp only [Output.append_append, String.append_assoc]
  rfl

set_option maxRecDepth 4000 in
/-- A blank line and a block of two lines: the dialogue prompts three times and once more at the end,
and shows the one text that the file shows. -/
theorem converse_agrees_on_block :
    let lines := [" ", "\x7bsay", "\"a\";\x7d"]
    let start := Machine.fresh ⟨.ofBytes [], .empty⟩
    let m : Machine := ⟨.empty, start.streams.append "a\n"⟩
    WellBehaved .empty lines ∧ start.runSource 0 (unlines lines) = (.completed, m) ∧
      ∃ (session : Session) (echoes : List String),
        converse 0 (begin (.fresh ⟨.ofText (unlines lines), .empty⟩) .empty) = .ok () session ∧
          session.machine.environment = m.environment ∧ echoes.length = 3 ∧
          m.streams = start.streams.append (String.join echoes) ∧
          session.machine.streams.output = Output.empty.append (banner ++
            String.join (List.zipWith (· ++ ·) ["msharp> ", "msharp> ", "...    "] echoes) ++
              "msharp> " ++ "\n") := by
  intro lines start m
  have hanswers : Buffer.empty.answers lines =
      [.pending, .pending, .ready "\x7bsay\n\"a\";\x7d\n"] := by decide
  have hsubmission : Program.ofSource "\x7bsay\n\"a\";\x7d\n" =
      .ok [.group (.mk ⟨.leftBrace, "\x7b", ⟨1, 1⟩⟩
        [.say ⟨.sayWord, "say", ⟨1, 2⟩⟩ (.text ⟨.text, "a", ⟨2, 1⟩⟩ "a")])] := by
    have htokens : tokenize "\x7bsay\n\"a\";\x7d\n" = .ok [⟨.leftBrace, "\x7b", ⟨1, 1⟩⟩,
        ⟨.sayWord, "say", ⟨1, 2⟩⟩, ⟨.text, "a", ⟨2, 1⟩⟩, ⟨.semicolon, ";", ⟨2, 4⟩⟩,
        ⟨.rightBrace, "\x7d", ⟨2, 5⟩⟩, ⟨.endOfInput, "", ⟨3, 1⟩⟩] := by decide +kernel
    exact Program.ofSource_eq_ok.mpr ⟨_, htokens, rfl⟩
  have hfile : Program.ofSource (unlines lines) =
      .ok [.group (.mk ⟨.leftBrace, "\x7b", ⟨2, 1⟩⟩
        [.say ⟨.sayWord, "say", ⟨2, 2⟩⟩ (.text ⟨.text, "a", ⟨3, 1⟩⟩ "a")])] := by
    have htokens : tokenize (unlines lines) = .ok [⟨.leftBrace, "\x7b", ⟨2, 1⟩⟩,
        ⟨.sayWord, "say", ⟨2, 2⟩⟩, ⟨.text, "a", ⟨3, 1⟩⟩, ⟨.semicolon, ";", ⟨3, 4⟩⟩,
        ⟨.rightBrace, "\x7d", ⟨3, 5⟩⟩, ⟨.endOfInput, "", ⟨4, 1⟩⟩] := by decide +kernel
    exact Program.ofSource_eq_ok.mpr ⟨_, htokens, rfl⟩
  have hbehaved : WellBehaved .empty lines := by
    refine ⟨by simp [lines, PlainLine], by simp [hanswers], by decide, ?_, ?_⟩
    · intro before line rest hlines hblank
      have hstays : ∀ line ∈ lines, isQuit line = false := by decide
      exact hstays line (hlines ▸ List.mem_append_right before List.mem_cons_self)
    · intro source hready
      simp only [hanswers, List.mem_cons, reduceCtorEq, Submission.ready.injEq, List.not_mem_nil,
        or_false, false_or] at hready
      subst hready
      exact ⟨_, hsubmission, rfl⟩
  have hrun : start.runSource 0 (unlines lines) = (.completed, m) := by
    rw [Machine.runSource_of_ok 0 start hfile]
    rfl
  obtain ⟨session, echoes, hconverse, -, henvironment, hlength, hechoes, houtput⟩ :=
    converse_agrees_with_file hbehaved hrun Output.unfailing_empty Output.empty
  have hprompts : Buffer.empty.prompts lines = ["msharp> ", "msharp> ", "...    "] := by decide
  rw [hprompts] at houtput
  exact ⟨hbehaved, hrun, session, echoes, hconverse, henvironment, hlength, hechoes, houtput⟩

end Dialogue

end Parlance
