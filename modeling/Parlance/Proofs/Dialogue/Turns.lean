import Parlance.Dialogue
import Parlance.Proofs.Dialogue.Submissions
import Parlance.Proofs.Run.Writing

/-!
# One turn of a dialogue

On streams that do not fail, a turn prompts, reads a line and deals with the answer of the buffer to it.
Only a complete submission is run (`react`), and only two things are reported (`report?`): too many
closing braces, and a submission that fails. Neither of them ends the dialogue (`turn_of_answer`). It
ends at a line that asks to leave (`turn_at_quit`) and at the end of the input (`turn_at_end`).
-/

namespace Parlance

open Sequencing

/-! ## Streams that do not fail -/

namespace Session

/-- A session that has this input left and has written one more text. -/
def advance (session : Session) (rest : Input) (text : String) : Session :=
  { session with machine := session.machine.advance rest text }

@[simp] theorem buffer_advance (session : Session) (rest : Input) (text : String) :
    (session.advance rest text).buffer = session.buffer := rfl

@[simp] theorem streams_advance (session : Session) (rest : Input) (text : String) :
    (session.advance rest text).machine.streams =
      ⟨rest, session.machine.streams.output.append text⟩ := rfl

/-- Two steps through the streams are one: the input is the later one, and the texts add up. -/
@[simp] theorem advance_advance (session : Session) (rest rest' : Input) (text text' : String) :
    (session.advance rest text).advance rest' text' = session.advance rest' (text ++ text') := by
  simp only [advance, Machine.advance_advance]

end Session

namespace Dialogue

variable {session : Session} {line : String} {answer : Submission} {next : Buffer} {rest : Input}
  {rounds : Nat}

/-- A prompt that cannot fail is shown, and nothing else happens. -/
theorem prompt_of_unfailing (h : session.machine.streams.output.Unfailing) (text : String) :
    console (Console.prompt text) session =
      .ok () (session.advance session.machine.streams.input text) := by
  rw [console, Console.prompt_of_unfailing h]
  rfl

/-- A line that cannot fail is shown with its end. -/
theorem writeLine_of_unfailing (h : session.machine.streams.output.Unfailing) (text : String) :
    console (Console.writeLine text) session =
      .ok () (session.advance session.machine.streams.input (text ++ "\n")) := by
  rw [console, Console.writeLine_eq_write, Console.write_of_unlimited h.unlimited]
  rfl

/-- The line that is there is read. -/
theorem readLine_of_line {input : Input} (h : input.readLine = (.line line, rest)) (text : String) :
    console Console.readLine (session.advance input text) =
      .ok (some line) (session.advance rest text) := by
  rw [console, Session.streams_advance, Console.readLine_of_line h]
  rfl

/-- The input may be over, which is no failure. -/
theorem readLine_of_over {input : Input} (h : input.readLine = (.over, rest)) (text : String) :
    console Console.readLine (session.advance input text) = .ok none (session.advance rest text) := by
  rw [console, Session.streams_advance, Console.readLine_of_over h]
  rfl

/-! ## Reports -/

/-- What is written where errors are reported. -/
def reported (messages : List String) : String :=
  String.join (messages.map fun message => "M# error: " ++ message ++ "\n")

@[simp] theorem reported_nil : reported [] = "" := rfl

/-- Reports add up. -/
theorem reported_append (first second : List String) :
    reported (first ++ second) = reported first ++ reported second := by
  rw [reported, List.map_append, String.join_append]
  rfl

/-- A report is one line, as long as its message is. -/
theorem reported_singleton (message : String) :
    reported [message] = "M# error: " ++ message ++ "\n" := by
  simp [reported]

/-- What is written to the errors leaves the machine and the buffer alone. -/
theorem writeError_of_unlimited {errors : Output} (h : errors.limit = none) (text : String)
    (m : Machine) (b : Buffer) :
    writeError text ⟨m, errors, b⟩ = .ok () ⟨m, errors.append text, b⟩ := by
  rw [writeError, Output.write_of_unlimited h]

/-- The three pieces of a report are one report. -/
theorem report_of_unlimited {errors : Output} (h : errors.limit = none) (message : String)
    (m : Machine) (b : Buffer) :
    report message ⟨m, errors, b⟩ = .ok () ⟨m, errors.append (reported [message]), b⟩ := by
  have hlimit : ∀ text, (errors.append text).limit = none := fun _ => h
  rw [report, bind_of_ok (writeError_of_unlimited h _ m b),
    bind_of_ok (writeError_of_unlimited (hlimit _) _ m b), Output.append_append,
    writeError_of_unlimited (hlimit _), Output.append_append, reported_singleton]

/-! ## Turns -/

/-- What becomes of an answer: a submission is run, and any other answer leaves the machine as it is. -/
def react (rounds : Nat) (answer : Submission) (m : Machine) : Outcome × Machine :=
  match answer with
  | .ready source => m.runSource rounds source
  | _ => (.completed, m)

/-- What is reported about an answer, if anything is. -/
def report? (answer : Submission) (outcome : Outcome) : Option String :=
  match answer, outcome with
  | .unbalanced, _ => some "Too many closing braces."
  | .ready _, .failed failure => some failure.message
  | _, _ => none

theorem get_apply (session : Session) : (get : Dialogue Session) session = .ok session session := rfl

/-- A turn prompts, reads a line and deals with the answer to it. Whatever fails, the dialogue goes on. -/
theorem turn_of_answer {k : Machine} {outcome : Outcome}
    (hopen : session.machine.streams.output.Unfailing)
    (hread : session.machine.streams.input.readLine = (.line line, rest))
    (hstays : session.buffer.isBlank = true → isQuit line = false)
    (hpush : session.buffer.push line = (answer, next))
    (hreact : react rounds answer (session.machine.advance rest session.buffer.prompt) = (outcome, k))
    (hends : outcome ≠ .unfinished)
    (herrors : report? answer outcome ≠ none → session.errors.limit = none) :
    turn rounds session =
      .ok true ⟨k, session.errors.append (reported (report? answer outcome).toList), next⟩ := by
  generalize hprompt : session.buffer.prompt = text at hreact
  have hpushed : push line (session.advance rest text) =
      .ok answer ⟨session.machine.advance rest text, session.errors, next⟩ := by
    rw [push, Session.buffer_advance, hpush]
    rfl
  have hquit : ¬ (session.buffer.isBlank && isQuit line) = true := by
    intro h
    obtain ⟨hblank, hquit⟩ := Bool.and_eq_true_iff.mp h
    rw [hstays hblank] at hquit
    cases hquit
  rw [turn, bind_of_ok (get_apply session), hprompt, bind_of_ok (prompt_of_unfailing hopen text),
    bind_of_ok (readLine_of_line hread text)]
  dsimp only
  rw [if_neg hquit, bind_of_ok hpushed]
  cases answer with
  | pending =>
    cases hreact
    simp only [report?, Option.toList_none, reported_nil, Output.append_empty]
    rfl
  | unbalanced =>
    cases hreact
    dsimp only
    rw [bind_of_ok (report_of_unlimited (herrors nofun) _ _ _)]
    rfl
  | ready source =>
    have hsubmit : submit rounds source ⟨session.machine.advance rest text, session.errors, next⟩ =
        .ok outcome ⟨k, session.errors, next⟩ := by
      rw [react] at hreact
      rw [submit, hreact]
    dsimp only
    rw [bind_of_ok hsubmit]
    cases outcome with
    | completed =>
      simp only [report?, Option.toList_none, reported_nil, Output.append_empty]
      rfl
    | failed failure =>
      dsimp only
      rw [bind_of_ok (report_of_unlimited (herrors nofun) _ _ _)]
      rfl
    | unfinished => exact absurd rfl hends

/-- At a line that asks to leave, a turn only prompts, if nothing is collected. -/
theorem turn_at_quit (hopen : session.machine.streams.output.Unfailing)
    (hread : session.machine.streams.input.readLine = (.line line, rest))
    (hblank : session.buffer.isBlank = true) (hquit : isQuit line = true) :
    turn rounds session = .ok false (session.advance rest session.buffer.prompt) := by
  have hleaves : (session.buffer.isBlank && isQuit line) = true :=
    Bool.and_eq_true_iff.mpr ⟨hblank, hquit⟩
  rw [turn, bind_of_ok (get_apply session), bind_of_ok (prompt_of_unfailing hopen _),
    bind_of_ok (readLine_of_line hread _)]
  dsimp only
  rw [if_pos hleaves]
  rfl

/-- At the end of the input, a turn prompts once more and ends the line. -/
theorem turn_at_end (hopen : session.machine.streams.output.Unfailing)
    (hread : session.machine.streams.input.readLine = (.over, rest)) :
    turn rounds session = .ok false (session.advance rest (session.buffer.prompt ++ "\n")) := by
  generalize hprompt : session.buffer.prompt = text
  have hline : console (Console.writeLine "") (session.advance rest text) =
      .ok () (session.advance rest (text ++ "\n")) := by
    rw [writeLine_of_unfailing (hopen.append text), Session.advance_advance]
    rfl
  rw [turn, bind_of_ok (get_apply session), hprompt, bind_of_ok (prompt_of_unfailing hopen text),
    bind_of_ok (readLine_of_over hread text)]
  dsimp only
  rw [bind_of_ok hline]
  rfl

/-! ## The beginning -/

/-- What a dialogue begins with. -/
def banner : String := "M# REPL\nType :quit to exit.\n"

/-- A dialogue shows its banner and then takes turns, one more than there are bytes at most. -/
theorem converse_of_unfailing {environment : Environment} {input : Input} {output : Output}
    (hopen : output.Unfailing) (errors : Output) :
    converse rounds (begin ⟨environment, input, output⟩ errors) =
      turns rounds (input.unread.length + 1)
        ⟨⟨environment, input, output.append banner⟩, errors, .empty⟩ := by
  let session := begin ⟨environment, input, output⟩ errors
  have htitle : console (Console.writeLine "M# REPL") session =
      .ok () (session.advance input ("M# REPL" ++ "\n")) := writeLine_of_unfailing hopen _
  have hhint : console (Console.writeLine "Type :quit to exit.")
      (session.advance input ("M# REPL" ++ "\n")) = .ok () (session.advance input banner) := by
    rw [writeLine_of_unfailing (hopen.append _), Session.advance_advance]
    rfl
  rw [converse, bind_of_ok htitle, bind_of_ok hhint]
  rfl

end Dialogue

end Parlance
