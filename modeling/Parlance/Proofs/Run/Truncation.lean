import Parlance.Proofs.Run.Comparison
import Parlance.Proofs.Run.Parts
import Parlance.Proofs.Run.Writing
import Parlance.Proofs.Source.ErrorPlaces

/-!
# Output that runs out of room

An output may take only so many bytes. A program writes to it as it would write to one that never fails,
byte by byte, until the room is used up; the write that goes beyond ends the program with an error at the
`say` or the `do` it comes from. So the limit cuts what is written short at exactly its place, and does
nothing if there is room for all of it (`Machine.finishes_on_limited_output`).

`Run.Truncates` compares a run with itself on an output with some room. Sequences keep it: when the first
of two runs fits, the second one has the room that is left, and when it does not, the second one is never
begun.
-/

namespace Parlance

open Sequencing

/-! ## Room -/

namespace Output

/-- The output when it takes this many more bytes. -/
def withRoom (output : Output) (room : Nat) : Output :=
  { output with limit := some (output.written.size + room) }

/-- An output with some room takes what fits into it. -/
theorem accepts_withRoom (output : Output) (room size : Nat) :
    (output.withRoom room).accepts size = true ↔ size ≤ room := by
  show decide (output.written.size + size ≤ output.written.size + room) = true ↔ size ≤ room
  rw [decide_eq_true_eq, Nat.add_le_add_iff_left]

/-- A text that fits is written, and takes its room. -/
theorem write_withRoom_of_le (output : Output) {text : String} {room : Nat}
    (h : text.toUTF8.size ≤ room) :
    (output.withRoom room).write text =
      (none, (output.append text).withRoom (room - text.toUTF8.size)) := by
  have hlimit : output.written.size + room =
      (output.written ++ text.toUTF8).size + (room - text.toUTF8.size) := by
    rw [ByteArray.size_append]
    omega
  rw [write, if_pos ((output.accepts_withRoom _ _).mpr h)]
  simp only [withRoom, append, hlimit]

/-- Of a text that does not fit, the bytes are written for which there is room. -/
theorem write_withRoom_of_lt (output : Output) {text : String} {room : Nat}
    (h : room < text.toUTF8.size) :
    (output.withRoom room).write text = (some .closed,
      { output.withRoom room with written := output.written ++ text.toUTF8.extract 0 room }) := by
  have haccepts : ¬ (output.withRoom room).accepts text.toUTF8.size = true := by
    rw [accepts_withRoom]
    exact Nat.not_le.mpr h
  have hroom : (output.withRoom room).limit.getD 0 - (output.withRoom room).written.size = room := by
    simp only [withRoom, Option.getD_some]
    omega
  rw [write, if_neg haccepts]
  dsimp only
  rw [hroom]
  rfl

/-- A write does not decide whether the next flush fails. -/
theorem flushFails_write (output : Output) (text : String) :
    (output.write text).2.flushFails = output.flushFails := by
  unfold write
  dsimp only
  split <;> rfl

end Output

/-- The machine when its output takes this many more bytes. -/
def Machine.withRoom (m : Machine) (room : Nat) : Machine :=
  m.withOutput (m.streams.output.withRoom room)

/-! ## Runs on an output with room -/

namespace Run

variable {α β : Type}

/-- A run that writes this text goes like this on an output with so much room: in the same way if the text
fits, and if not it ends where the room does. -/
structure Truncated (r : Run α) (m : Machine) (text : String) (room : Nat) : Prop where
  fits : text.toUTF8.size ≤ room →
    Alike (fun k k' => k' = k.withRoom (room - text.toUTF8.size)) (r m) (r (m.withRoom room))
  cut : room < text.toUTF8.size →
    ∃ (position : Position) (k : Machine),
      r (m.withRoom room) = .error (.failed ⟨.stream .closed, position⟩) k ∧
        k.streams.output.written = m.streams.output.written ++ text.toUTF8.extract 0 room

/-- A run writes a text to an output that never fails, and an output with room cuts the run off where it
cuts the text off. -/
def Truncates (r : Run α) : Prop :=
  ∀ m : Machine, m.streams.output.Unfailing →
    ∃ text : String, (left r m).streams.output = m.streams.output.append text ∧
      ∀ room, Truncated r m text room

namespace Truncates

/-- A run that writes nothing and does not look at the output. -/
theorem of_silent {r : Run α} (hleft : ∀ m, (left r m).streams.output = m.streams.output)
    (h : ∀ m room, Alike (fun k k' => k' = k.withRoom room) (r m) (r (m.withRoom room))) :
    Truncates r := by
  intro m _
  refine ⟨"", by rw [hleft, Output.append_empty], fun room => ⟨fun _ => h m room, fun hroom => ?_⟩⟩
  exact absurd hroom (Nat.not_lt_zero room)

/-- One write. -/
theorem of_write {r : Run Unit} (position : Position) (text : String)
    (h : ∀ m : Machine, m.streams.output.flushFails = false →
      r m = match m.streams.output.write text with
        | (none, output) => .ok () (m.withOutput output)
        | (some fault, output) => .error (.failed ⟨.stream fault, position⟩) (m.withOutput output)) :
    Truncates r := by
  intro m hopen
  have hwritten := h m hopen.flushes
  rw [Output.write_of_unlimited hopen.unlimited] at hwritten
  refine ⟨text, by rw [left_of_ok hwritten]; rfl, fun room => ⟨fun hfits => ?_, fun hcut => ?_⟩⟩
  · have hroom := h (m.withRoom room) hopen.flushes
    rw [Machine.withRoom, Machine.withOutput, Output.write_withRoom_of_le _ hfits] at hroom
    rw [hwritten, Machine.withRoom, Machine.withOutput, hroom]
    exact .ok () rfl
  · have hroom := h (m.withRoom room) hopen.flushes
    rw [Machine.withRoom, Machine.withOutput, Output.write_withRoom_of_lt _ hcut] at hroom
    exact ⟨position, _, hroom, rfl⟩

/-- A line is one text with its end, so it may be cut within either. -/
theorem writeLine (position : Position) (text : String) :
    Truncates (Run.console position (Console.writeLine text)) :=
  of_write position (text ++ "\n") fun m _ => console_writeLine position text m

/-- A prompt is cut within its text; the flush behind it does not fail. -/
theorem prompt (position : Position) (text : String) :
    Truncates (Run.console position (Console.prompt text)) := by
  refine of_write position text fun m hflushes => ?_
  rw [console_prompt]
  have hkept := m.streams.output.flushFails_write text
  rw [hflushes] at hkept
  generalize m.streams.output.write text = written at hkept ⊢
  obtain ⟨_ | fault, output⟩ := written
  · exact if_neg (Bool.eq_false_iff.mp hkept)
  · rfl

/-- Reading writes nothing. -/
theorem readLine (position : Position) : Truncates (Run.console position Console.readLine) := by
  apply of_silent
  · intro m
    rw [left, console_readLine]
    rcases m.streams.input.readLine with ⟨_ | _ | _ | _, rest⟩ <;> rfl
  · intro m room
    have hsame : (m.withRoom room).streams.input = m.streams.input := rfl
    rw [console_readLine, console_readLine, hsame]
    rcases m.streams.input.readLine with ⟨_ | _ | _ | _, rest⟩
    · exact .ok _ rfl
    · exact .ok _ rfl
    · exact .error _ rfl
    · exact .error _ rfl

/-- When the first of two runs fits, the second one has the room that is left; when it does not, the
second one is never begun. -/
theorem bind {r : Run α} {f : α → Run β} (hr : Truncates r) (hf : ∀ v, Truncates (f v)) :
    Truncates (r >>= f) := by
  intro m hopen
  obtain ⟨first, hfirst, hroom⟩ := hr m hopen
  cases hm : r m with
  | error e k =>
    rw [left_of_error hm] at hfirst
    refine ⟨first, by rw [left_bind_of_error hm, hfirst], fun room => ⟨fun hfits => ?_, fun hcut => ?_⟩⟩
    · have halike := (hroom room).fits hfits
      rw [hm] at halike
      obtain ⟨k', hm', hk⟩ := halike.exists_of_error
      rw [bind_eq_error.mpr (.inl hm), bind_eq_error.mpr (.inl hm')]
      exact .error e hk
    · obtain ⟨position, k', hm', hwritten⟩ := (hroom room).cut hcut
      exact ⟨position, k', bind_eq_error.mpr (.inl hm'), hwritten⟩
  | ok v k =>
    rw [left_of_ok hm] at hfirst
    have hopen' : k.streams.output.Unfailing := hfirst ▸ hopen.append first
    obtain ⟨second, hsecond, hroom'⟩ := hf v k hopen'
    have hbytes : (first ++ second).toUTF8 = first.toUTF8 ++ second.toUTF8 := String.toByteArray_append
    have hsize : (first ++ second).toUTF8.size = first.toUTF8.size + second.toUTF8.size := by
      rw [hbytes, ByteArray.size_append]
    have hgoes : ∀ {room}, first.toUTF8.size ≤ room → (r >>= f) (m.withRoom room) =
        f v (k.withRoom (room - first.toUTF8.size)) := by
      intro room hfits
      have halike := (hroom room).fits hfits
      rw [hm] at halike
      obtain ⟨k', hm', rfl⟩ := halike.exists_of_ok
      exact bind_of_ok hm'
    refine ⟨first ++ second, ?_, fun room => ⟨fun hfits => ?_, fun hcut => ?_⟩⟩
    · rw [left_bind_of_ok hm, hsecond, hfirst, Output.append_append]
    · rw [bind_of_ok hm, hgoes (by omega), hsize, ← Nat.sub_sub]
      exact (hroom' _).fits (by omega)
    · rcases Nat.lt_or_ge room first.toUTF8.size with hearly | hlate
      · obtain ⟨position, k', hm', hwritten⟩ := (hroom room).cut hearly
        refine ⟨position, k', bind_eq_error.mpr (.inl hm'), ?_⟩
        rw [hwritten, hbytes, extract_append_of_le hearly.le]
      · obtain ⟨position, k', hrest, hwritten⟩ := (hroom' (room - first.toUTF8.size)).cut (by omega)
        refine ⟨position, k', (hgoes hlate).trans hrest, ?_⟩
        rw [hwritten, hfirst, hbytes, extract_append_of_ge hlate]
        exact ByteArray.append_assoc

/-- An assignment writes nothing. -/
theorem assign (name : String) (value : Value) : Truncates (Run.assign name value) :=
  of_silent (fun _ => rfl) fun _ _ => .ok () rfl

end Truncates

/-- A run that changes nothing writes nothing. -/
theorem Observes.truncates {r : Run α} (h : Observes r) : Truncates r := by
  apply Truncates.of_silent
  · intro m
    rw [h.left_eq]
  · intro m room
    have hsame : m.environment = (m.withRoom room).environment := rfl
    exact (h.alike hsame).mono fun ⟨hk, hk'⟩ => hk ▸ hk'

namespace Truncates

/-- The second part of a sequence has the room that the first one leaves. -/
theorem sequential : Sequential Truncates where
  pure v := (Answers.pure v).observes.truncates
  bind := bind
  unfinished := (Observes.throw _).truncates

/-- Methods write only through prompts and notices, so they are cut where these are. -/
theorem callable (position : Position) : Callable Truncates position where
  fail fault := (Answers.fail fault position).observes.truncates
  prompt text := prompt position text
  readLine := readLine position
  writeLine text := writeLine position text
  askUntilRead text hasks := by
    intro m hopen
    -- The input, and so the number of rounds, is the same on an output with room.
    have hsame : ∀ room, Method.askUntilRead text position (m.withRoom room) =
        Method.askNumber text position (m.streams.input.unread.length + 1) (m.withRoom room) :=
      fun room => Method.askUntilRead_apply text position (m.withRoom room)
    have hthis := Method.askUntilRead_apply text position m
    obtain ⟨written, hwritten, hroom⟩ := hasks (m.streams.input.unread.length + 1) m hopen
    refine ⟨written, by rw [left_congr hthis, hwritten], fun room => ⟨?_, ?_⟩⟩
    · rw [hthis, hsame]
      exact (hroom room).fits
    · rw [hsame]
      exact (hroom room).cut

end Truncates

end Run

open Run (Answers Truncates FailsWithin)

/-! ## Programs -/

/-- What a program writes is cut short where the room ends. -/
theorem executeAll_truncates (rounds : Nat) (program : Program) :
    Truncates (executeAll rounds program) := by
  apply executeAll_has Truncates.sequential
  intro part _
  cases part with
  | reference start name => exact (Answers.lookup name start.position).observes.truncates
  | target name => exact .assign name
  | say start => exact .writeLine start.position
  | call start name =>
    exact Method.invoke_has Truncates.sequential (Truncates.callable start.position) name

/-- The token at which a part of a program uses the streams: the `say` of a text, the `do` of a call. -/
def Part.speaker? : Part → Option Token
  | say start => some start
  | call start _ => some start
  | reference _ _ => none
  | target _ => none

/-- The tokens at which a program uses the streams. -/
def Program.speakers (program : Program) : List Token := program.parts.filterMap Part.speaker?

/-- A failure of a stream is reported at a token that uses the streams. -/
theorem executeAll_failsAtSpeaker (rounds : Nat) (program : Program) :
    FailsWithin (fun e => ∀ fault, e.fault = .stream fault →
      ∃ token ∈ program.speakers, e.position = token.position) (executeAll rounds program) := by
  refine executeAll_has (FailsWithin.sequential _) rounds program fun part hpart => ?_
  cases part with
  | reference start name => exact .lookup nofun
  | target name => exact .assign name
  | say start =>
    have hstart : start ∈ program.speakers := List.mem_filterMap.mpr ⟨_, hpart, rfl⟩
    exact fun text => .console fun _ _ _ => ⟨start, hstart, rfl⟩
  | call start name =>
    have hstart : start ∈ program.speakers := List.mem_filterMap.mpr ⟨_, hpart, rfl⟩
    exact fun values => (Method.invoke_failsWithin values).mono fun he _ _ => ⟨start, hstart, he.1⟩

namespace Machine

/-- **An output without room ends a program exactly where it is full.** Let a program come to an end on a
machine whose output never fails, and let `text` be what it has written. On the same machine with room
for so many more bytes:

* if the text fits, the program comes to the same end, with the same variables, unread input and output,
  and has taken up the room of the text;
* if not, it ends in a stream error at a `say` or a `do` of the program, and has written exactly as many
  bytes of the text as there was room for. -/
theorem finishes_on_limited_output {program : Program} {m k : Machine} {outcome : Outcome}
    (hopen : m.streams.output.Unfailing) (h : m.Finishes program outcome k) :
    ∃ text : String, k.streams.output = m.streams.output.append text ∧ ∀ room : Nat,
      (text.toUTF8.size ≤ room → (m.withRoom room).Finishes program outcome
        (k.withRoom (room - text.toUTF8.size))) ∧
      (room < text.toUTF8.size → ∃ (position : Position) (k' : Machine),
        (m.withRoom room).Finishes program (.failed (.runtime ⟨.stream .closed, position⟩)) k' ∧
          k'.streams.output.written = m.streams.output.written ++ text.toUTF8.extract 0 room ∧
          (∃ token ∈ program.speakers, position = token.position) ∧
          ∀ tokens, parse tokens = .ok program → ∃ token ∈ tokens, position = token.position ∧
            (token.kind = .sayWord ∨ token.kind = .doWord)) := by
  obtain ⟨hends, rounds, hrun⟩ := h
  obtain ⟨text, hwritten, hroom⟩ := executeAll_truncates rounds program m hopen
  rw [left_of_run hrun] at hwritten
  refine ⟨text, hwritten, fun room => ⟨fun hfits => ?_, fun hcut => ?_⟩⟩
  · obtain ⟨k', hrun', rfl⟩ := exists_run_of_alike ((hroom room).fits hfits) hrun
    exact ⟨hends, rounds, hrun'⟩
  · obtain ⟨position, k', hfails, hbytes⟩ := (hroom room).cut hcut
    have hrun' := run_eq_failed.mpr hfails
    refine ⟨position, k', ⟨nofun, rounds, hrun'⟩, hbytes, ?_, ?_⟩
    · exact executeAll_failsAtSpeaker rounds program _ _ _ hfails .closed rfl
    · intro tokens hprogram
      obtain ⟨i, token, htoken, hposition, hblames⟩ := blamedIn_of_run hprogram hrun'
      exact ⟨token, List.mem_of_getElem? htoken, hposition, hblames⟩

/-- A number is asked for, the one line of the input is refused, and the input is over. The program writes
29 bytes. An output that takes so many makes no difference; with room for four, the program ends within
the notice that the line is no number. -/
theorem finishes_within_retry_notice :
    let program : Program := [.perform (.mk ⟨.doWord, "do", .start⟩ "readNumber"
      [.text ⟨.text, "?", .start⟩ "?"])]
    let outcome : Outcome := .failed (.runtime ⟨.inputExhausted, .start⟩)
    let m : Machine := .fresh ⟨⟨[97, Input.newline], .over⟩, .empty⟩
    let k : Machine := ⟨.empty, ⟨⟨[], .over⟩,
      ((Output.empty.append "?").append (Method.retryNotice ++ "\n")).append "?"⟩⟩
    m.Finishes program outcome k ∧ (m.withRoom 29).Finishes program outcome (k.withRoom 0) ∧
      ∃ k' : Machine,
        (m.withRoom 4).Finishes program (.failed (.runtime ⟨.stream .closed, .start⟩)) k' ∧
          k'.streams.output.written = "?Inv".toUTF8 := by
  have hrun : run 0 [.perform (.mk ⟨.doWord, "do", .start⟩ "readNumber"
        [.text ⟨.text, "?", .start⟩ "?"])]
      (.fresh ⟨⟨[97, Input.newline], .over⟩, .empty⟩) =
      (.failed (.runtime ⟨.inputExhausted, .start⟩), ⟨.empty, ⟨⟨[], .over⟩,
        ((Output.empty.append "?").append (Method.retryNotice ++ "\n")).append "?"⟩⟩) := rfl
  intro program outcome m k
  have hfinishes : m.Finishes program outcome k := ⟨by decide, 0, hrun⟩
  obtain ⟨text, hwritten, hroom⟩ := finishes_on_limited_output Output.unfailing_empty hfinishes
  have hbytes : text.toUTF8 = "?Invalid number. Try again.\n?".toUTF8 :=
    ByteArray.empty_append.symm.trans (congrArg Output.written hwritten).symm
  rw [hbytes] at hroom
  obtain ⟨position, k', hends, hcut, ⟨token, htoken, rfl⟩, -⟩ := (hroom 4).2 (by decide)
  cases List.mem_singleton.mp htoken
  exact ⟨hfinishes, (hroom 29).1 (by decide), k', hends, hcut⟩

end Machine

end Parlance
