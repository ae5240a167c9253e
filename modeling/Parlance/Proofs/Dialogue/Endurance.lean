import Parlance.Proofs.Dialogue.Turns
import Parlance.Proofs.Run.Asking
import Parlance.Proofs.Run.Unfailing

/-!
# A dialogue outlives its failures

A dialogue and the programs it runs read from one input, so which line goes to whom is decided by the
programs. `Course` describes a dialogue without running it: turn by turn, the line that was read, the
answer of the buffer, and the run of a submission with its outcome and the machine it leaves, from which
the next turn begins. A submission is related to its outcome by `Machine.Ends`, so a course knows of no
number of rounds; and a line that asks to leave while nothing is collected belongs to no course
(`Follows.stays`), it ends one (`Stops`).

Nothing that fails in a submission keeps the next turn from being taken. What could is a submission that
never ends: a dialogue is `Responsive` if none of those it comes to is of this kind. Then it goes on to a
line that asks to leave, or to the end of the input (`exists_course`), because every turn takes a line
and no program puts one back. The dialogue as it is run follows its course turn by turn
(`turns_of_course`), with what it reports along the way.
-/

namespace Parlance

open Sequencing

namespace Dialogue

/-! ## Courses -/

/-- What happened in one turn. -/
@[ext] structure Entry where
  /-- The line that was read. -/
  line : String
  /-- The answer to it. -/
  answer : Submission
  /-- The machine behind the line. -/
  before : Machine
  /-- How the submission ended; without one, nothing failed. -/
  outcome : Outcome
  /-- The machine that is left. -/
  after : Machine

namespace Entry

/-- A submission was run to its end, and nothing else was done to the machine. -/
def Sound (entry : Entry) : Prop :=
  match entry.answer with
  | .ready source => entry.before.Ends source entry.outcome entry.after
  | _ => entry.outcome = .completed ∧ entry.after = entry.before

/-- Whether there was a submission. -/
def isReady (entry : Entry) : Bool :=
  match entry.answer with
  | .ready _ => true
  | _ => false

/-- What was reported, if anything was. -/
def report? (entry : Entry) : Option String := Dialogue.report? entry.answer entry.outcome

/-- A turn that is taken on a machine with a buffer, and behind which the dialogue goes on. -/
structure Follows (m : Machine) (b : Buffer) (entry : Entry) : Prop where
  read : ∃ rest, m.streams.input.readLine = (.line entry.line, rest) ∧
    entry.before = m.advance rest b.prompt
  stays : b.isBlank = true → isQuit entry.line = false
  answered : entry.answer = (b.push entry.line).1
  sound : entry.Sound

end Entry

/-- Turns are taken one after the other: from a machine with a buffer, up to a machine with a buffer. -/
inductive Course : Machine → Buffer → List Entry → Machine → Buffer → Prop
  | done {m : Machine} {b : Buffer} : Course m b [] m b
  | turn {m k : Machine} {b last : Buffer} {entry : Entry} {entries : List Entry}
      (hentry : entry.Follows m b)
      (hrest : Course entry.after (b.push entry.line).2 entries k last) :
      Course m b (entry :: entries) k last

/-- A dialogue stops at a line that asks to leave while nothing is collected, or where the input is
over. -/
inductive Stops (m : Machine) (b : Buffer) : Machine → Prop
  | quit {line : String} {rest : Input} (hread : m.streams.input.readLine = (.line line, rest))
      (hblank : b.isBlank = true) (hquit : isQuit line = true) : Stops m b (m.advance rest b.prompt)
  | atEnd {rest : Input} (hread : m.streams.input.readLine = (.over, rest)) :
      Stops m b (m.advance rest (b.prompt ++ "\n"))

/-- The next line makes a submission complete, which is then run on this machine. -/
def Submits (m : Machine) (b : Buffer) (source : String) (before : Machine) : Prop :=
  ∃ line rest, m.streams.input.readLine = (.line line, rest) ∧
    (b.isBlank = true → isQuit line = false) ∧ (b.push line).1 = .ready source ∧
      before = m.advance rest b.prompt

/-- Every submission that a dialogue comes to has an end. -/
def Responsive (m : Machine) (b : Buffer) : Prop :=
  ∀ entries k last source before, Course m b entries k last → Submits k last source before →
    before.Terminates source

/-- Submissions are run one after the other: each on the variables that the one before it left, and on
the streams as it found them. -/
inductive Performs : Environment → List Entry → Environment → Prop
  | done {environment : Environment} : Performs environment [] environment
  | run {entry : Entry} {entries : List Entry} {source : String} {final : Environment}
      (hready : entry.answer = .ready source)
      (hends : entry.before.Ends source entry.outcome entry.after)
      (hrest : Performs entry.after.environment entries final) :
      Performs entry.before.environment (entry :: entries) final

/-! ## One turn -/

variable {m k final : Machine} {b last : Buffer} {entry : Entry} {entries : List Entry}

namespace Entry

/-- Either a submission was run, or the machine was left alone. -/
theorem Sound.cases (h : entry.Sound) :
    (∃ source, entry.answer = .ready source ∧
      entry.before.Ends source entry.outcome entry.after) ∨
    (entry.isReady = false ∧ entry.outcome = .completed ∧ entry.after = entry.before) := by
  unfold Sound at h
  unfold isReady
  cases hanswer : entry.answer with
  | ready source =>
    rw [hanswer] at h
    exact .inl ⟨source, rfl, h⟩
  | _ =>
    rw [hanswer] at h
    exact .inr ⟨rfl, h⟩

theorem isReady_of_answer {source : String} (h : entry.answer = .ready source) :
    entry.isReady = true := by
  rw [isReady, h]

/-- Without a submission, nothing is done. -/
theorem react_of_not_isReady (h : entry.isReady = false) (rounds : Nat) (m : Machine) :
    react rounds entry.answer m = (.completed, m) := by
  unfold isReady at h
  unfold react
  split
  · rename_i hanswer
    rw [hanswer] at h
    cases h
  · rfl

/-- A turn was not cut off, and enough rounds are enough to repeat it. -/
theorem Sound.exists_react (h : entry.Sound) :
    entry.outcome ≠ .unfinished ∧ ∃ enough, ∀ rounds, enough ≤ rounds →
      react rounds entry.answer entry.before = (entry.outcome, entry.after) := by
  rcases h.cases with ⟨source, hanswer, hends, enough, hrun⟩ | ⟨hready, houtcome, hafter⟩
  · refine ⟨hends, enough, fun rounds hrounds => ?_⟩
    rw [hanswer, react, Machine.runSource_mono hrounds (by rwa [hrun]), hrun]
  · rw [houtcome, hafter]
    exact ⟨by decide, 0, fun rounds _ => react_of_not_isReady hready rounds _⟩

/-- Nothing that happens in a turn spoils the streams. -/
theorem Sound.unfailing (h : entry.Sound) (hbefore : entry.before.streams.Unfailing) :
    entry.after.streams.Unfailing := by
  rcases h.cases with ⟨source, -, hends⟩ | ⟨-, -, hafter⟩
  · exact hends.unfailing hbefore
  · rwa [hafter]

/-- No turn puts anything back into the input. -/
theorem Sound.unread_le (h : entry.Sound) :
    entry.after.streams.input.unread.length ≤ entry.before.streams.input.unread.length := by
  rcases h.cases with ⟨source, -, hends⟩ | ⟨-, -, hafter⟩
  · exact hends.unread_le
  · rw [hafter]

/-- There is one way for a turn to go. -/
theorem Follows.unique {other : Entry} (h : entry.Follows m b) (hother : other.Follows m b) :
    other = entry := by
  obtain ⟨rest, hread, hbefore⟩ := h.read
  obtain ⟨rest', hread', hbefore'⟩ := hother.read
  obtain ⟨hline, rfl⟩ : other.line = entry.line ∧ rest' = rest := by
    rw [hread, Prod.mk.injEq, LineRead.line.injEq] at hread'
    exact ⟨hread'.1.symm, hread'.2.symm⟩
  have hanswer : other.answer = entry.answer := by rw [hother.answered, h.answered, hline]
  have hsame : other.before = entry.before := hbefore'.trans hbefore.symm
  obtain ⟨-, enough, hreact⟩ := h.sound.exists_react
  obtain ⟨-, enough', hreact'⟩ := hother.sound.exists_react
  have hends := hreact' _ (Nat.le_max_right enough enough')
  rw [hanswer, hsame, hreact _ (Nat.le_max_left enough enough'), Prod.mk.injEq] at hends
  exact Entry.ext hline hanswer hsame hends.1.symm hends.2.symm

/-- What a turn submits is what was run in it. -/
theorem Follows.ends_of_submits {source : String} {before : Machine} (h : entry.Follows m b)
    (hsubmits : Submits m b source before) : before.Ends source entry.outcome entry.after := by
  obtain ⟨rest, hread, hbefore⟩ := h.read
  obtain ⟨line, rest', hread', -, hanswer, rfl⟩ := hsubmits
  rw [hread] at hread'
  cases hread'
  have hends := h.sound
  rw [Sound, h.answered, hanswer, hbefore] at hends
  exact hends

/-- A turn takes a line, and no program puts it back. -/
theorem Follows.unread_lt (h : entry.Follows m b) :
    entry.after.streams.input.unread.length < m.streams.input.unread.length := by
  obtain ⟨rest, hread, hbefore⟩ := h.read
  have hle := h.sound.unread_le
  rw [hbefore] at hle
  exact Nat.lt_of_le_of_lt hle (Input.length_lt_of_readLine hread)

theorem Follows.unfailing (h : entry.Follows m b) (hm : m.streams.Unfailing) :
    entry.after.streams.Unfailing := by
  obtain ⟨rest, hread, hbefore⟩ := h.read
  refine h.sound.unfailing ?_
  rw [hbefore]
  exact ⟨Input.exists_ofText_of_readLine hm.text hread, hm.output.append _⟩

end Entry

/-- Where the next submission has an end, a turn is taken or the dialogue stops. -/
theorem exists_follows_or_stops (hm : m.streams.Unfailing)
    (hends : ∀ source before, Submits m b source before → before.Terminates source) :
    (∃ entry : Entry, entry.Follows m b) ∨ ∃ final, Stops m b final := by
  obtain ⟨text, htext⟩ := hm.text
  rcases Input.readLine_ofText text with ⟨-, hover⟩ | ⟨line, later, hline⟩
  · rw [← htext] at hover
    exact .inr ⟨_, .atEnd hover⟩
  rw [← htext] at hline
  by_cases hleaves : b.isBlank = true ∧ isQuit line = true
  · exact .inr ⟨_, .quit hline hleaves.1 hleaves.2⟩
  have hstays : b.isBlank = true → isQuit line = false := by
    intro hblank
    exact Bool.eq_false_iff.mpr fun hquit => hleaves ⟨hblank, hquit⟩
  let before := m.advance (.ofText later) b.prompt
  cases hanswer : (b.push line).1 with
  | ready source =>
    obtain ⟨outcome, after, hrun⟩ := hends source before ⟨line, _, hline, hstays, hanswer, rfl⟩
    let entry : Entry := ⟨line, .ready source, before, outcome, after⟩
    exact .inl ⟨entry, ⟨_, hline, rfl⟩, hstays, hanswer.symm, hrun⟩
  | _ =>
    let entry : Entry := ⟨line, (b.push line).1, before, .completed, before⟩
    have hsound : entry.Sound := by
      simp only [Entry.Sound, entry, hanswer, and_self]
    exact .inl ⟨entry, ⟨_, hline, rfl⟩, hstays, rfl, hsound⟩

/-! ## All turns -/

/-- What a dialogue comes to later, it comes to. -/
theorem Responsive.of_follows (h : Responsive m b) (hentry : entry.Follows m b) :
    Responsive entry.after (b.push entry.line).2 :=
  fun _ k last source before hcourse => h _ k last source before (.turn hentry hcourse)

/-- A responsive dialogue comes to its end: every turn leaves less to be read. -/
theorem exists_course (hm : m.streams.Unfailing) (h : Responsive m b) :
    ∃ entries k last final, Course m b entries k last ∧ Stops k last final := by
  induction hlength : m.streams.input.unread.length using Nat.strongRecOn generalizing m b with
  | ind length ih =>
    rcases exists_follows_or_stops hm fun source before => h [] m b source before .done with
      ⟨entry, hentry⟩ | ⟨final, hstops⟩
    · obtain ⟨entries, k, last, final, hcourse, hstops⟩ :=
        ih _ (hlength ▸ hentry.unread_lt) (hentry.unfailing hm) (h.of_follows hentry) rfl
      exact ⟨entry :: entries, k, last, final, .turn hentry hcourse, hstops⟩
    · exact ⟨[], m, b, final, .done, hstops⟩

/-- A turn as it is run. -/
theorem Entry.Follows.exists_turn (h : entry.Follows m b) (hopen : m.streams.output.Unfailing) :
    ∃ enough, ∀ rounds, enough ≤ rounds → ∀ errors : Output, errors.Unfailing →
      turn rounds ⟨m, errors, b⟩ = .ok true
        ⟨entry.after, errors.append (reported entry.report?.toList), (b.push entry.line).2⟩ := by
  obtain ⟨rest, hread, hbefore⟩ := h.read
  obtain ⟨hends, enough, hreact⟩ := h.sound.exists_react
  refine ⟨enough, fun rounds hrounds errors herrors => ?_⟩
  have hpush : b.push entry.line = (entry.answer, (b.push entry.line).2) := by rw [h.answered]
  have hreacts := hreact rounds hrounds
  rw [hbefore] at hreacts
  exact turn_of_answer hopen hread h.stays hpush hreacts hends fun _ => herrors.unlimited

/-- Where a dialogue stops, the turn says so. -/
theorem Stops.turn_eq (h : Stops m b final) (hopen : m.streams.output.Unfailing) (rounds : Nat)
    (errors : Output) : turn rounds ⟨m, errors, b⟩ = .ok false ⟨final, errors, b⟩ := by
  cases h with
  | quit hread hblank hquit => exact turn_at_quit hopen hread hblank hquit
  | atEnd hread => exact turn_at_end hopen hread

/-- The dialogue as it is run follows its course to the end, and reports what fails on the way. -/
theorem turns_of_course (hcourse : Course m b entries k last) (hm : m.streams.Unfailing)
    (hstops : Stops k last final) :
    ∃ enough, ∀ rounds, enough ≤ rounds → ∀ (count : Nat) (errors : Output), errors.Unfailing →
      m.streams.input.unread.length < count →
        turns rounds count ⟨m, errors, b⟩ =
          .ok () ⟨final, errors.append (reported (entries.filterMap Entry.report?)), last⟩ := by
  induction hcourse with
  | done =>
    refine ⟨0, fun rounds _ count errors _ hcount => ?_⟩
    obtain ⟨count, rfl⟩ : ∃ n, count = n + 1 := ⟨count - 1, by omega⟩
    rw [turns, bind_of_ok (hstops.turn_eq hm.output rounds errors), List.filterMap_nil, reported_nil,
      Output.append_empty]
    rfl
  | @turn m k b last entry entries hentry hrest ih =>
    obtain ⟨few, hturn⟩ := hentry.exists_turn hm.output
    obtain ⟨many, hturns⟩ := ih (hentry.unfailing hm) hstops
    refine ⟨max few many, fun rounds hrounds count errors herrors hcount => ?_⟩
    obtain ⟨count, rfl⟩ : ∃ n, count = n + 1 := ⟨count - 1, by omega⟩
    have hshorter := hentry.unread_lt
    have hreports : reported ((entry :: entries).filterMap Entry.report?) =
        reported entry.report?.toList ++ reported (entries.filterMap Entry.report?) := by
      rw [← reported_append]
      cases hreport : entry.report? with
      | none => rw [List.filterMap_cons_none hreport]; rfl
      | some message => rw [List.filterMap_cons_some hreport]; rfl
    rw [turns, bind_of_ok (hturn rounds (by omega) errors herrors), if_pos rfl,
      hturns rounds (by omega) count _ (herrors.append _) (by omega), Output.append_append, hreports]

/-- The submissions of a course are run on the variables that they hand on to each other; no other turn
changes a variable. -/
theorem Course.performs (h : Course m b entries k last) :
    Performs m.environment (entries.filter Entry.isReady) k.environment := by
  induction h with
  | done => exact .done
  | @turn m k b last entry entries hentry hrest ih =>
    obtain ⟨rest, -, hbefore⟩ := hentry.read
    have hsame : entry.before.environment = m.environment := by rw [hbefore]; rfl
    rw [← hsame]
    rcases hentry.sound.cases with ⟨source, hanswer, hends⟩ | ⟨hready, -, hafter⟩
    · rw [List.filter_cons_of_pos (Entry.isReady_of_answer hanswer)]
      exact .run hanswer hends ih
    · rw [List.filter_cons_of_neg (Bool.eq_false_iff.mp hready), ← hafter]
      exact ih

/-- Every entry of a course records what really happens. -/
theorem Course.sound (h : Course m b entries k last) : ∀ entry ∈ entries, entry.Sound := by
  induction h with
  | done => exact fun _ hentry => absurd hentry List.not_mem_nil
  | turn hentry hrest ih => exact List.forall_mem_cons.mpr ⟨hentry.sound, ih⟩

/-- Leaving changes no variable. -/
theorem Stops.environment_eq (h : Stops m b final) : final.environment = m.environment := by
  cases h <;> rfl

/-! ## The only course -/

/-- Where a dialogue stops, it reads no line that it would deal with. -/
theorem Stops.not_reads {line : String} {rest : Input} (h : Stops m b final)
    (hread : m.streams.input.readLine = (.line line, rest))
    (hstays : b.isBlank = true → isQuit line = false) : False := by
  cases h with
  | quit hread' hblank hquit =>
    rw [hread] at hread'
    cases hread'
    rw [hstays hblank] at hquit
    cases hquit
  | atEnd hread' =>
    rw [hread] at hread'
    cases hread'

/-- Where a dialogue stops, no turn follows. -/
theorem Stops.not_follows (h : Stops m b final) : ¬ entry.Follows m b := by
  intro hentry
  obtain ⟨rest, hread, -⟩ := hentry.read
  exact h.not_reads hread hentry.stays

/-- A dialogue stops in one way. -/
theorem Stops.unique {other : Machine} (h : Stops m b final) (hother : Stops m b other) :
    other = final := by
  cases h <;> cases hother <;> simp_all

/-- There is one way for a dialogue to go. -/
theorem Course.unique {others : List Entry} {k' final' : Machine} {last' : Buffer}
    (h : Course m b entries k last) (hstops : Stops k last final)
    (hother : Course m b others k' last') (hstops' : Stops k' last' final') :
    others = entries ∧ final' = final ∧ last' = last := by
  induction h generalizing others with
  | done =>
    cases hother with
    | done => exact ⟨rfl, hstops.unique hstops', rfl⟩
    | turn hentry _ => exact absurd hentry hstops.not_follows
  | turn hentry _ ih =>
    cases hother with
    | done => exact absurd hentry hstops'.not_follows
    | turn hentry' hrest' =>
      cases hentry.unique hentry'
      obtain ⟨rfl, rfl, rfl⟩ := ih hstops hrest'
      exact ⟨rfl, rfl, rfl⟩

/-- A dialogue that comes to its end is responsive. -/
theorem Course.responsive (h : Course m b entries k last) (hstops : Stops k last final) :
    Responsive m b := by
  intro others k' last' source before hother hsubmits
  induction h generalizing others with
  | done =>
    cases hother with
    | done =>
      obtain ⟨line, rest, hread, hstays, -⟩ := hsubmits
      exact (hstops.not_reads hread hstays).elim
    | turn hentry _ => exact absurd hentry hstops.not_follows
  | turn hentry _ ih =>
    cases hother with
    | done => exact ⟨_, _, hentry.ends_of_submits hsubmits⟩
    | turn hentry' hrest' =>
      cases hentry.unique hentry'
      exact ih hstops _ hrest'

/-- A turn, said by what the buffer shows and answers. -/
theorem Course.cons {line text : String} {rest : Input} {answer : Submission} {next : Buffer}
    {outcome : Outcome} {after : Machine} (hread : m.streams.input.readLine = (.line line, rest))
    (hprompt : b.prompt = text) (hstays : b.isBlank = true → isQuit line = false)
    (hpush : b.push line = (answer, next))
    (hsound : Entry.Sound ⟨line, answer, m.advance rest text, outcome, after⟩)
    (hrest : Course after next entries k last) :
    Course m b (⟨line, answer, m.advance rest text, outcome, after⟩ :: entries) k last := by
  subst hprompt
  refine .turn ⟨⟨rest, hread, rfl⟩, hstays, ?_, hsound⟩ ?_
  · rw [hpush]
  · rw [hpush]
    exact hrest

/-! ## The end of a dialogue -/

/-- **No failure of a submission ends a dialogue.** Let a dialogue be held, from any variables, on an
input whose lines are all UTF-8, with an output and an error stream that never fail; and let every submission
that it comes to have an end. Then there is a list of turns by which it comes to its end, at the first
line it reads itself that asks to leave while nothing is collected, or where the input is over. Run with
enough rounds, it returns just there; what it has added to the error stream is one message for each turn
that closed too many braces and one for each submission that failed, in their order. Its variables are
then those that the submissions leave when they are run one after the other, and a submission that is no
program has changed neither a variable nor a stream. -/
theorem converse_outlives_failures {environment : Environment} {bytes : List UInt8}
    {output errors : Output}
    (hlines : ∀ line ∈ bytes.splitOn Input.newline, Input.decodeLine line ≠ .failed .invalidText)
    (hopen : output.Unfailing) (herrors : errors.Unfailing)
    (h : Responsive ⟨environment, .ofBytes bytes, output.append banner⟩ .empty) :
    ∃ (entries : List Entry) (k final : Machine) (last : Buffer),
      Course ⟨environment, .ofBytes bytes, output.append banner⟩ .empty entries k last ∧
      Stops k last final ∧
      (∃ enough, ∀ rounds, enough ≤ rounds →
        converse rounds (begin ⟨environment, .ofBytes bytes, output⟩ errors) =
          .ok () ⟨final, errors.append (reported (entries.filterMap Entry.report?)), last⟩) ∧
      Performs environment (entries.filter Entry.isReady) final.environment ∧
      ∀ entry ∈ entries, ∀ source failure, entry.answer = .ready source →
        Program.ofSource source = .error failure →
          entry.outcome = .failed failure ∧ entry.after = entry.before := by
  have hm : (Streams.mk (.ofBytes bytes) (output.append banner)).Unfailing :=
    ⟨Input.exists_ofText_of_lines hlines, hopen.append banner⟩
  obtain ⟨entries, k, last, final, hcourse, hstops⟩ := exists_course hm h
  obtain ⟨enough, hturns⟩ := turns_of_course hcourse hm hstops
  refine ⟨entries, k, final, last, hcourse, hstops, ⟨enough, fun rounds hrounds => ?_⟩, ?_, ?_⟩
  · rw [converse_of_unfailing hopen]
    exact hturns rounds hrounds _ errors herrors (Nat.lt_succ_self _)
  · rw [hstops.environment_eq]
    exact hcourse.performs
  · intro entry hentry source failure hanswer hsource
    have hends := hcourse.sound entry hentry
    rw [Entry.Sound, hanswer] at hends
    exact hends.of_error hsource

set_option maxRecDepth 4000 in
/-- A brace too many, a line that is no program, and a program that reads `exit` away from the dialogue:
the dialogue ends at the `exit` behind it, with two reports, and leaves the last line unread. -/
theorem converse_outlives_two_failures :
    let ask := "set x to do readString and use \"?\";"
    let bytes := bytesOf (unlines ["\x7d", "say ;", ask, "exit", " EXIT", "say x;"])
    let shown := banner ++ "msharp> " ++ "msharp> " ++ "msharp> " ++ "?" ++ "msharp> "
    let final : Machine := ⟨.assign .empty "x" (.text "exit"), .ofText (unlines ["say x;"]),
      Output.empty.append shown⟩
    Responsive ⟨.empty, .ofBytes bytes, Output.empty.append banner⟩ .empty ∧
      ∃ enough, ∀ rounds, enough ≤ rounds →
        converse rounds (begin (.fresh ⟨.ofBytes bytes, .empty⟩) .empty) =
          .ok () ⟨final, Output.empty.append (reported ["Too many closing braces.",
            "Unexpected token ';' in expression. (line 1, col 5)"]), .empty⟩ := by
  have hfails : Program.ofSource "say ;\n" =
      .error (.grammatical ⟨.unexpectedInExpression ";", ⟨1, 5⟩⟩) := by
    have htokens : tokenize "say ;\n" = .ok [⟨.sayWord, "say", ⟨1, 1⟩⟩, ⟨.semicolon, ";", ⟨1, 5⟩⟩,
        ⟨.endOfInput, "", ⟨2, 1⟩⟩] := by decide +kernel
    rw [Program.ofSource, htokens]
    rfl
  have hasks : Program.ofSource "set x to do readString and use \"?\";\n" =
      .ok [.assignCall ⟨.setWord, "set", ⟨1, 1⟩⟩ "x" (.mk ⟨.doWord, "do", ⟨1, 10⟩⟩ "readString"
        [.text ⟨.text, "?", ⟨1, 32⟩⟩ "?"])] := by
    have htokens : tokenize "set x to do readString and use \"?\";\n" = .ok
        [⟨.setWord, "set", ⟨1, 1⟩⟩, ⟨.identifier, "x", ⟨1, 5⟩⟩, ⟨.toWord, "to", ⟨1, 7⟩⟩,
         ⟨.doWord, "do", ⟨1, 10⟩⟩, ⟨.identifier, "readString", ⟨1, 13⟩⟩, ⟨.andWord, "and", ⟨1, 24⟩⟩,
         ⟨.useWord, "use", ⟨1, 28⟩⟩, ⟨.text, "?", ⟨1, 32⟩⟩, ⟨.semicolon, ";", ⟨1, 35⟩⟩,
         ⟨.endOfInput, "", ⟨2, 1⟩⟩] := by decide +kernel
    exact Program.ofSource_eq_ok.mpr ⟨_, htokens, rfl⟩
  have hrun {m : Machine} {rest : Input} (hopen : m.streams.output.Unfailing)
      (hread : m.streams.input.readLine = (.line "exit", rest)) :
      m.run 0 [.assignCall ⟨.setWord, "set", ⟨1, 1⟩⟩ "x" (.mk ⟨.doWord, "do", ⟨1, 10⟩⟩
          "readString" [.text ⟨.text, "?", ⟨1, 32⟩⟩ "?"])] =
        (.completed, ⟨m.environment.assign "x" (.text "exit"), (m.advance rest "?").streams⟩) := by
    have hcall : (Call.mk ⟨.doWord, "do", ⟨1, 10⟩⟩ "readString"
        [.text ⟨.text, "?", ⟨1, 32⟩⟩ "?"]).evaluate m = .ok (.text "exit") (m.advance rest "?") := by
      show (Method.askText "?" ⟨1, 10⟩ >>= fun line => pure (Value.text line)) m = _
      rw [bind_of_ok (Method.askText_of_line hopen hread)]
      rfl
    rw [Machine.run_eq_completed, executeAll, Statement.execute, bind_apply, bind_of_ok hcall]
    rfl
  intro ask bytes shown final
  have hplain : ∀ line ∈ ["\x7d", "say ;", ask, " EXIT"], PlainLine line := by
    simp [PlainLine, ask]
  have hprompt : Buffer.empty.prompt = "msharp> " := by decide
  obtain ⟨entries, k, hreports, hcourse, hstops⟩ : ∃ (entries : List Entry) (k : Machine),
      entries.filterMap Entry.report? = ["Too many closing braces.",
        "Unexpected token ';' in expression. (line 1, col 5)"] ∧
      Course ⟨.empty, .ofBytes bytes, Output.empty.append banner⟩ .empty entries k .empty ∧
      Stops k .empty final := by
    let start : Machine := ⟨.empty, .ofBytes bytes, Output.empty.append banner⟩
    let first := start.advance (.ofText (unlines ["say ;", ask, "exit", " EXIT", "say x;"])) "msharp> "
    let second := first.advance (.ofText (unlines [ask, "exit", " EXIT", "say x;"])) "msharp> "
    let third := second.advance (.ofText (unlines ["exit", " EXIT", "say x;"])) "msharp> "
    let k : Machine := ⟨.assign .empty "x" (.text "exit"), .ofText (unlines [" EXIT", "say x;"]),
      third.streams.output.append "?"⟩
    have hsay : second.Ends "say ;\n" (.failed (.grammatical ⟨.unexpectedInExpression ";", ⟨1, 5⟩⟩))
        second := by
      refine ⟨by decide, 0, ?_⟩
      rw [Machine.runSource, hfails]
    have hask : third.Ends "set x to do readString and use \"?\";\n" .completed k := by
      refine ⟨by decide, 0, ?_⟩
      rw [Machine.runSource_of_ok _ _ hasks]
      exact hrun ⟨rfl, rfl⟩ (Input.readLine_unlines_cons (by simp [PlainLine]) _)
    have hline {line : String} (h : line ∈ ["\x7d", "say ;", ask, " EXIT"]) (rest : List String) :=
      Input.readLine_unlines_cons (hplain line h) rest
    have hlast : Course second .empty [⟨ask, .ready "set x to do readString and use \"?\";\n", third,
        .completed, k⟩] k .empty :=
      .cons (hline (by simp) _) hprompt (by decide) (by decide) hask .done
    have hmiddle : Course first .empty (⟨"say ;", .ready "say ;\n", second, _, second⟩ :: _) k .empty :=
      .cons (hline (by simp) _) hprompt (by decide) (by decide) hsay hlast
    have hall : Course start .empty (⟨"\x7d", .unbalanced, first, .completed, first⟩ :: _) k .empty :=
      .cons (hline (by simp) _) hprompt (by decide) (by decide) ⟨rfl, rfl⟩ hmiddle
    refine ⟨_, k, ?_, hall, ?_⟩
    · decide
    · have hread : k.streams.input.readLine = (.line " EXIT", .ofText (unlines ["say x;"])) :=
        hline (by simp) _
      have hquit := Stops.quit (b := .empty) hread (by decide) (by decide)
      rwa [hprompt] at hquit
  have hresponsive := hcourse.responsive hstops
  refine ⟨hresponsive, ?_⟩
  have hlines : ∀ line ∈ bytes.splitOn Input.newline,
      Input.decodeLine line ≠ .failed .invalidText := by
    have hsplit : bytes.splitOn Input.newline =
        ["\x7d", "say ;", ask, "exit", " EXIT", "say x;", ""].map bytesOf := by decide
    intro line hline
    rw [hsplit, List.mem_map] at hline
    obtain ⟨text, -, rfl⟩ := hline
    rw [Input.decodeLine_bytesOf]
    simp
  obtain ⟨others, k', final', last', hcourse', hstops', hconverse, -⟩ :=
    converse_outlives_failures hlines Output.unfailing_empty Output.unfailing_empty hresponsive
  obtain ⟨rfl, rfl, rfl⟩ := hcourse.unique hstops hcourse' hstops'
  rw [hreports] at hconverse
  exact hconverse

end Dialogue

end Parlance
