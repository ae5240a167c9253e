import Parlance.Proofs.Run.Comparison
import Parlance.Proofs.Run.Parts
import Parlance.Proofs.Run.Writing
import Parlance.Proofs.Stream.Lines

/-!
# Reading no further than needed

A program and whoever runs it can share an input: a run takes whole lines from the front, and what
stands behind the last line it took has no influence on it. So if a run comes to an end with some of the
input unread, it does the same on every input that begins with the same bytes, and leaves whatever
stands behind them there (`Machine.finishes_whatever_is_unread`).

`Run.NeverReadsAhead` says this of any run, and sequences keep it: the bytes that the second run takes
are a part of what the first one leaves. The one action that looks at the whole input is the bound on
how often `readNumber` asks. It only serves to end the recursion (`Method.askNumber_of_lt`): every round
but the last takes a line.

## What this does not decide

What a run does that has read to the end of the input, where it can tell the end from more lines to
come.
-/

namespace Parlance

open Sequencing

namespace Run

variable {α β : Type}

/-! ## Runs without the input -/

/-- A run neither looks at the input nor changes it. -/
def IgnoresInput (r : Run α) : Prop :=
  ∀ (m : Machine) (input : Input),
    Alike (fun k k' => k' = k.withInput input) (r m) (r (m.withInput input))

/-- A run that changes nothing and is decided by the variables has no use for the input. -/
theorem Observes.ignoresInput {r : Run α} (h : Observes r) : IgnoresInput r := by
  intro m input
  have hsame : m.environment = (m.withInput input).environment := rfl
  exact (h.alike hsame).mono fun ⟨hk, hk'⟩ => hk ▸ hk'

namespace IgnoresInput

theorem assign (name : String) (value : Value) : IgnoresInput (Run.assign name value) :=
  fun _ _ => .ok () rfl

/-- Writing a line does not look at the input. -/
theorem writeLine (position : Position) (text : String) :
    IgnoresInput (Run.console position (Console.writeLine text)) := by
  intro m input
  rw [console_writeLine, console_writeLine, Machine.withInput]
  rcases m.streams.output.write (text ++ "\n") with ⟨_ | fault, output⟩
  · exact .ok () rfl
  · exact .error _ rfl

/-- A prompt does not look at the input. -/
theorem prompt (position : Position) (text : String) :
    IgnoresInput (Run.console position (Console.prompt text)) := by
  intro m input
  rw [console_prompt, console_prompt, Machine.withInput]
  rcases m.streams.output.write text with ⟨_ | fault, output⟩
  · dsimp only
    cases output.flushFails
    · exact .ok () rfl
    · exact .error _ rfl
  · exact .error _ rfl

/-- A run that ignores the input leaves all of it. -/
theorem input_left {r : Run α} (h : IgnoresInput r) (m : Machine) :
    (left r m).streams.input = m.streams.input := by
  have hsame := h m m.streams.input
  rw [show m.withInput m.streams.input = m from rfl] at hsame
  unfold left
  cases hm : r m with
  | ok v k =>
    rw [hm] at hsame
    obtain ⟨k', hk', hk⟩ := hsame.exists_of_ok
    cases hk'
    exact congrArg (fun machine => machine.streams.input) hk
  | error e k =>
    rw [hm] at hsame
    obtain ⟨k', hk', hk⟩ := hsame.exists_of_error
    cases hk'
    exact congrArg (fun machine => machine.streams.input) hk

end IgnoresInput

/-! ## Runs that do not read ahead -/

/-- A run takes some bytes from the front of the input. When it leaves any and is not cut off, it does the
same on every input that begins with the bytes it took. -/
def NeverReadsAhead (r : Run α) : Prop :=
  ∀ m : Machine, ∃ taken : List UInt8,
    m.streams.input = (left r m).streams.input.behind taken ∧
      ((left r m).streams.input.unread ≠ [] → (∀ k, r m ≠ .error .unfinished k) →
        ∀ later : Input,
          Alike (fun k k' => k' = k.withInput later) (r m) (r (m.withInput (later.behind taken))))

/-- A run that ignores the input takes no bytes from it. -/
theorem IgnoresInput.neverReadsAhead {r : Run α} (h : IgnoresInput r) : NeverReadsAhead r := by
  intro m
  exact ⟨[], (h.input_left m).symm, fun _ _ later => h m later⟩

namespace NeverReadsAhead

/-- The bytes that a sequence takes are those of its parts, one behind the other; each part still
leaves some if the whole does. -/
theorem bind {r : Run α} {f : α → Run β} (hr : NeverReadsAhead r) (hf : ∀ v, NeverReadsAhead (f v)) :
    NeverReadsAhead (r >>= f) := by
  intro m
  obtain ⟨taken, hinput, hrepeat⟩ := hr m
  cases hm : r m with
  | error e k =>
    have hbind : (r >>= f) m = .error e k := bind_eq_error.mpr (.inl hm)
    rw [left_of_error hm] at hinput hrepeat
    rw [left_of_error hbind, hbind]
    refine ⟨taken, hinput, fun hrest hends later => ?_⟩
    rw [hm] at hrepeat
    have hfailed : ∀ k', (.error e k : EStateM.Result Interruption Machine α) ≠ .error .unfinished k' := by
      rintro k' ⟨⟩
      exact hends k rfl
    obtain ⟨k', hm', hk⟩ := (hrepeat hrest hfailed later).exists_of_error
    rw [bind_eq_error.mpr (.inl hm')]
    exact .error e hk
  | ok v k =>
    rw [left_of_ok hm] at hinput hrepeat
    rw [left_bind_of_ok hm, bind_of_ok hm]
    obtain ⟨taken', hinput', hrepeat'⟩ := hf v k
    refine ⟨taken ++ taken', ?_, fun hrest hends later => ?_⟩
    · rw [hinput, hinput', Input.behind_behind]
    -- The first run left the bytes that the second one took, so it did not leave nothing.
    · have hbetween : k.streams.input.unread ≠ [] := by
        rw [hinput']
        exact List.append_ne_nil_of_right_ne_nil taken' hrest
      rw [hm] at hrepeat
      obtain ⟨k', hm', rfl⟩ :=
        (hrepeat hbetween (fun _ => nofun) (later.behind taken')).exists_of_ok
      rw [← Input.behind_behind, bind_of_ok hm']
      exact hrepeat' hrest hends later

/-- Runs that do not read ahead can be put in sequence. -/
theorem sequential : Sequential NeverReadsAhead where
  pure v := (Answers.pure v).observes.ignoresInput.neverReadsAhead
  bind := bind
  unfinished := (Observes.throw _).ignoresInput.neverReadsAhead

/-- A line is taken with its end, and what stands behind that is not looked at. -/
theorem readLine (position : Position) :
    NeverReadsAhead (Run.console position Console.readLine) := by
  intro m
  cases hread : m.streams.input.readLine with
  | mk read rest =>
    obtain ⟨taken, hinput, hrepeat⟩ := Input.exists_taken_of_readLine hread
    have hleft : (left (Run.console position Console.readLine) m).streams.input = rest := by
      rw [left, console_readLine, hread]
      cases read <;> rfl
    rw [hleft]
    refine ⟨taken, hinput, fun hrest hends later => ?_⟩
    rw [console_readLine, hread] at hends
    have hread' : read ≠ .pending := by
      rintro rfl
      exact hends _ rfl
    have hlater : (m.withInput (later.behind taken)).streams.input.readLine = (read, later) :=
      hrepeat hrest hread' later
    rw [console_readLine, console_readLine, hread, hlater]
    cases read with
    | failed fault => exact .error _ rfl
    | pending => exact absurd rfl hread'
    | _ => exact .ok _ rfl

end NeverReadsAhead

end Run

/-! ## Asking for a number -/

namespace Method

open Run

/-- A line that was read is no longer in the input. -/
theorem length_lt_of_console_readLine {position : Position} {m k : Machine} {line : String}
    (h : console position Console.readLine m = .ok (some line) k) :
    k.streams.input.unread.length < m.streams.input.unread.length := by
  rw [console_readLine] at h
  rcases hread : m.streams.input.readLine with ⟨_ | _ | _ | _, rest⟩ <;> rw [hread] at h <;> cases h
  exact Input.length_lt_of_readLine hread

/-- One round of asking for a number: it comes to an end, or it has taken a line and asks again. -/
theorem askNumber_succ_cases (prompt : String) (position : Position) (m : Machine) :
    (∃ result, ∀ rounds, askNumber prompt position (rounds + 1) m = result) ∨
      ∃ k : Machine, k.streams.input.unread.length < m.streams.input.unread.length ∧
        ∀ rounds, askNumber prompt position (rounds + 1) m = askNumber prompt position rounds k := by
  cases hprompt : console position (Console.prompt prompt) m with
  | error e k => exact .inl ⟨_, fun rounds => bind_eq_error.mpr (.inl hprompt)⟩
  | ok _ asked =>
    have hasked := (IgnoresInput.prompt position prompt).input_left m
    rw [left_of_ok hprompt] at hasked
    cases hread : console position Console.readLine asked with
    | error e k =>
      refine .inl ⟨.error e k, fun rounds => ?_⟩
      rw [askNumber, bind_of_ok hprompt]
      exact bind_eq_error.mpr (.inl hread)
    | ok line read =>
      cases line with
      | none =>
        refine .inl ⟨fail .inputExhausted position read, fun rounds => ?_⟩
        rw [askNumber, bind_of_ok hprompt, bind_of_ok hread]
      | some line =>
        have hshorter := length_lt_of_console_readLine hread
        rw [hasked] at hshorter
        cases hnumber : Number.read? (String.ofList (Text.trim line.toList)) with
        | some value =>
          refine .inl ⟨.ok value read, fun rounds => ?_⟩
          rw [askNumber, bind_of_ok hprompt, bind_of_ok hread]
          dsimp only
          rw [hnumber]
          rfl
        | none =>
          have hagain : ∀ rounds, askNumber prompt position (rounds + 1) m =
              (console position (Console.writeLine retryNotice) >>=
                fun _ => askNumber prompt position rounds) read := by
            intro rounds
            rw [askNumber, bind_of_ok hprompt, bind_of_ok hread]
            dsimp only
            rw [hnumber]
          cases hnotice : console position (Console.writeLine retryNotice) read with
          | error e k =>
            refine .inl ⟨.error e k, fun rounds => ?_⟩
            rw [hagain]
            exact bind_eq_error.mpr (.inl hnotice)
          | ok _ k =>
            have hkept := (IgnoresInput.writeLine position retryNotice).input_left read
            rw [left_of_ok hnotice] at hkept
            refine .inr ⟨k, by rwa [hkept], fun rounds => ?_⟩
            rw [hagain, bind_of_ok hnotice]

/-- As many rounds as there are bytes, and one more, are enough to ask for a number. -/
theorem askNumber_of_lt {prompt : String} {position : Position} {m : Machine} {few many : Nat}
    (hfew : m.streams.input.unread.length < few) (hmany : m.streams.input.unread.length < many) :
    askNumber prompt position few m = askNumber prompt position many m := by
  induction few generalizing m many with
  | zero => exact absurd hfew (Nat.not_lt_zero _)
  | succ few ih =>
    obtain ⟨many, rfl⟩ : ∃ n, many = n + 1 := ⟨many - 1, by omega⟩
    rcases askNumber_succ_cases prompt position m with ⟨result, hresult⟩ | ⟨k, hk, hagain⟩
    · rw [hresult, hresult]
    · rw [hagain, hagain]
      exact ih (by omega) (by omega)

/-- Any number of rounds above the number of bytes is as good as another. -/
theorem askUntilRead_of_lt {prompt : String} {position : Position} {m : Machine} {rounds : Nat}
    (h : m.streams.input.unread.length < rounds) :
    askUntilRead prompt position m = askNumber prompt position rounds m := by
  rw [askUntilRead_apply]
  exact askNumber_of_lt (Nat.lt_succ_self _) h

end Method

namespace Run.NeverReadsAhead

open Method (askUntilRead_of_lt)

/-- Methods do not read ahead, the ones that ask included. -/
theorem callable (position : Position) : Callable NeverReadsAhead position where
  fail fault := (Answers.fail fault position).observes.ignoresInput.neverReadsAhead
  prompt text := (IgnoresInput.prompt position text).neverReadsAhead
  readLine := readLine position
  writeLine text := (IgnoresInput.writeLine position text).neverReadsAhead
  askUntilRead prompt hasks := by
    intro m
    obtain ⟨taken, hinput, -⟩ := hasks (m.streams.input.unread.length + 1) m
    rw [← left_congr (askUntilRead_of_lt (Nat.lt_succ_self _))] at hinput
    refine ⟨taken, hinput, fun hrest hends later => ?_⟩
    -- Both runs are given a number of rounds that is enough for either.
    obtain ⟨rounds, hthis, hother⟩ : ∃ n, m.streams.input.unread.length < n ∧
        (m.withInput (later.behind taken)).streams.input.unread.length < n :=
      ⟨_, Nat.lt_succ_of_le (Nat.le_max_left _ _), Nat.lt_succ_of_le (Nat.le_max_right _ _)⟩
    obtain ⟨taken', hinput', hrepeat⟩ := hasks rounds m
    rw [← left_congr (askUntilRead_of_lt hthis)] at hinput' hrepeat
    cases Input.behind_inj (hinput'.symm.trans hinput)
    rw [← askUntilRead_of_lt hthis] at hrepeat
    rw [askUntilRead_of_lt hother]
    exact hrepeat hrest hends later

end Run.NeverReadsAhead

/-! ## Programs -/

open Run (NeverReadsAhead IgnoresInput Answers)

/-- No program reads ahead. -/
theorem executeAll_neverReadsAhead (rounds : Nat) (program : Program) :
    NeverReadsAhead (executeAll rounds program) := by
  apply executeAll_has NeverReadsAhead.sequential
  intro part _
  cases part with
  | reference start name =>
    exact (Answers.lookup name start.position).observes.ignoresInput.neverReadsAhead
  | target name => exact fun value => (IgnoresInput.assign name value).neverReadsAhead
  | say start => exact fun text => (IgnoresInput.writeLine start.position text).neverReadsAhead
  | call start name =>
    exact Method.invoke_has NeverReadsAhead.sequential (NeverReadsAhead.callable start.position) name

namespace Machine

/-- **A program reads no further than the lines it uses.** Let a program come to an end on an input of two
parts, the second not empty, with exactly the second part left unread. On every input that begins with
the first part it then comes to an end with the same outcome, the same variables and the same output,
and leaves exactly what stands behind the first part, which may be nothing. -/
theorem finishes_whatever_is_unread {program : Program} {environment : Environment} {output : Output}
    {used rest : List UInt8} {ending : Ending} {outcome : Outcome} {k : Machine}
    (h : Finishes ⟨environment, ⟨⟨used ++ rest, ending⟩, output⟩⟩ program outcome k)
    (hleft : k.streams.input.unread = rest) (hrest : rest ≠ []) (later : Input) :
    Finishes ⟨environment, ⟨⟨used ++ later.unread, later.ending⟩, output⟩⟩ program outcome
      ⟨k.environment, ⟨later, k.streams.output⟩⟩ := by
  obtain ⟨hends, rounds, hrun⟩ := h
  obtain ⟨taken, hinput, hrepeat⟩ := executeAll_neverReadsAhead rounds program
    ⟨environment, ⟨⟨used ++ rest, ending⟩, output⟩⟩
  rw [left_of_run hrun] at hinput hrepeat
  have htaken : taken = used := by
    have hbytes : used ++ rest = taken ++ k.streams.input.unread := congrArg Input.unread hinput
    rw [hleft] at hbytes
    exact (List.append_cancel_right hbytes).symm
  subst htaken
  have hnotCut : ∀ k', executeAll rounds program
      ⟨environment, ⟨⟨taken ++ rest, ending⟩, output⟩⟩ ≠ .error .unfinished k' := by
    intro k' hcut
    rw [run, Program.execute, hcut] at hrun
    cases hrun
    exact hends rfl
  have halike := hrepeat (by rwa [hleft]) hnotCut later
  obtain ⟨k', hrun', rfl⟩ := exists_run_of_alike halike hrun
  exact ⟨hends, rounds, hrun'⟩

/-- A number is asked for: the first line is refused, and the second is no text, which ends the program.
It ends in the same way when nothing follows. -/
theorem finishes_behind_refused_lines :
    let program : Program := [.perform (.mk ⟨.doWord, "do", .start⟩ "readNumber"
      [.text ⟨.text, "?", .start⟩ "?"])]
    let used : List UInt8 := [97, Input.newline, 255, Input.newline]
    let outcome : Outcome := .failed (.runtime ⟨.stream .invalidText, .start⟩)
    let output : Output := ((Output.empty.append "?").append (Method.retryNotice ++ "\n")).append "?"
    Finishes (.fresh ⟨⟨used ++ [98, 99], .over⟩, .empty⟩) program outcome
        ⟨.empty, ⟨⟨[98, 99], .over⟩, output⟩⟩ ∧
      Finishes (.fresh ⟨⟨used ++ [], .over⟩, .empty⟩) program outcome
        ⟨.empty, ⟨⟨[], .over⟩, output⟩⟩ := by
  have hrun : run 0 [.perform (.mk ⟨.doWord, "do", .start⟩ "readNumber"
        [.text ⟨.text, "?", .start⟩ "?"])]
      (.fresh ⟨⟨[97, Input.newline, 255, Input.newline, 98, 99], .over⟩, .empty⟩) =
      (.failed (.runtime ⟨.stream .invalidText, .start⟩), ⟨.empty, ⟨⟨[98, 99], .over⟩,
        ((Output.empty.append "?").append (Method.retryNotice ++ "\n")).append "?"⟩⟩) := rfl
  intro program used outcome output
  have hfinishes : Finishes (.fresh ⟨⟨used ++ [98, 99], .over⟩, .empty⟩) program outcome
      ⟨.empty, ⟨⟨[98, 99], .over⟩, output⟩⟩ := ⟨by decide, 0, hrun⟩
  exact ⟨hfinishes, finishes_whatever_is_unread hfinishes rfl (by decide) (.ofBytes [])⟩

end Machine

end Parlance
