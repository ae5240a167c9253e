import Parlance.Proofs.Run.Reading

/-!
# Streams that stay unfailing

A program can use streams up, but it cannot spoil them: an input that is a text is still one behind the
lines that were read, and an output that takes everything goes on to do so. So a program that was run on
streams that never fail leaves such streams, whatever else went wrong in it (`Machine.Ends.unfailing`),
and it leaves no more to be read than it found (`Machine.Ends.unread_le`).

`Run.Keeps` states this for any property of streams. Sequences keep every such property, so what is to be
shown about one is what the single actions do.
-/

namespace Parlance

/-- Streams that never fail: the input is a text and then is over, and the output takes everything. -/
structure Streams.Unfailing (streams : Streams) : Prop where
  text : ∃ text, streams.input = .ofText text
  output : streams.output.Unfailing

namespace Run

open Sequencing

variable {α β : Type}

/-- A run leaves streams with a property, if it finds such streams. -/
def Keeps (P : Streams → Prop) (r : Run α) : Prop :=
  ∀ m : Machine, P m.streams → P (left r m).streams

namespace Keeps

variable {P : Streams → Prop}

/-- A run that leaves the streams alone keeps every property of them. -/
theorem of_left {r : Run α} (h : ∀ m, (left r m).streams = m.streams) : Keeps P r := by
  intro m hm
  rwa [h m]

/-- The second part begins at streams that still have the property. -/
theorem bind {r : Run α} {f : α → Run β} (hr : Keeps P r) (hf : ∀ v, Keeps P (f v)) :
    Keeps P (r >>= f) := by
  intro m hm
  have hk := hr m hm
  cases hrun : r m with
  | ok v k =>
    rw [left_of_ok hrun] at hk
    rw [left_bind_of_ok hrun]
    exact hf v k hk
  | error e k =>
    rw [left_of_error hrun] at hk
    rwa [left_bind_of_error hrun]

/-- Every property of streams is kept by sequences of runs that keep it. -/
theorem sequential (P : Streams → Prop) : Sequential (Keeps P) where
  pure _ := of_left fun _ => rfl
  bind := bind
  unfinished := of_left fun _ => rfl

end Keeps

/-! ## Streams that never fail -/

/-- A line that is written leaves the output as willing as before. -/
theorem writeLine_keeps (position : Position) (text : String) :
    Keeps Streams.Unfailing (console position (Console.writeLine text)) := by
  intro m hm
  have hwrite := console_writeLine position text m
  rw [Output.write_of_unlimited hm.output.unlimited] at hwrite
  rw [left_of_ok hwrite]
  exact ⟨hm.text, hm.output.append _⟩

/-- A prompt that is written leaves the output as willing as before. -/
theorem prompt_keeps (position : Position) (text : String) :
    Keeps Streams.Unfailing (console position (Console.prompt text)) := by
  intro m hm
  have hopen := hm.output.append text
  have hprompt := console_prompt position text m
  rw [Output.write_of_unlimited hm.output.unlimited] at hprompt
  dsimp only at hprompt
  rw [hopen.flushes, if_neg Bool.false_ne_true] at hprompt
  rw [left_of_ok hprompt]
  exact ⟨hm.text, hopen⟩

/-- A line that is read leaves a text, which is the rest of one. -/
theorem readLine_keeps (position : Position) :
    Keeps Streams.Unfailing (console position Console.readLine) := by
  intro m hm
  cases hread : m.streams.input.readLine with
  | mk read rest =>
    have hleft : left (console position Console.readLine) m = m.withInput rest := by
      rw [left, console_readLine, hread]
      cases read <;> rfl
    rw [hleft]
    exact ⟨Input.exists_ofText_of_readLine hm.text hread, hm.output⟩

/-- Methods keep streams unfailing, the ones that ask included. -/
theorem callable_keeps (position : Position) : Callable (Keeps Streams.Unfailing) position where
  fail _ := .of_left fun _ => rfl
  prompt text := prompt_keeps position text
  readLine := readLine_keeps position
  writeLine text := writeLine_keeps position text
  askUntilRead prompt hasks := by
    intro m hm
    rw [left_congr (Method.askUntilRead_apply prompt position m)]
    exact hasks _ m hm

end Run

open Run (Keeps)

/-- No program spoils streams that never fail. -/
theorem executeAll_keeps (rounds : Nat) (program : Program) :
    Keeps Streams.Unfailing (executeAll rounds program) := by
  refine executeAll_has (Keeps.sequential Streams.Unfailing) rounds program fun part _ => ?_
  cases part with
  | reference start name =>
    exact .of_left fun m => congrArg Machine.streams (Run.left_lookup name start.position m)
  | target name => exact fun value => .of_left fun _ => rfl
  | say start => exact Run.writeLine_keeps start.position
  | call start name =>
    exact Method.invoke_has (Keeps.sequential Streams.Unfailing) (Run.callable_keeps start.position) name

/-! ## Sources -/

namespace Machine

variable {m k : Machine} {source : String} {outcome : Outcome}

/-- A source text that is no program is not run. -/
theorem Ends.of_error {failure : Failure} (h : m.Ends source outcome k)
    (hsource : Program.ofSource source = .error failure) : outcome = .failed failure ∧ k = m := by
  obtain ⟨-, rounds, hrun⟩ := h
  rw [runSource, hsource] at hrun
  cases hrun
  exact ⟨rfl, rfl⟩

/-- What is left of a source text is its machine, or what its program leaves. -/
theorem Ends.left_cases (h : m.Ends source outcome k) :
    k = m ∨ ∃ rounds program, k = Run.left (executeAll rounds program) m := by
  cases hsource : Program.ofSource source with
  | error failure => exact .inl (h.of_error hsource).2
  | ok program =>
    obtain ⟨-, rounds, hrun⟩ := h
    rw [runSource_of_ok _ _ hsource] at hrun
    exact .inr ⟨rounds, program, (left_of_run hrun).symm⟩

/-- A program leaves unfailing streams as it found them, whatever its outcome is. -/
theorem Ends.unfailing (h : m.Ends source outcome k) (hm : m.streams.Unfailing) :
    k.streams.Unfailing := by
  rcases h.left_cases with rfl | ⟨rounds, program, rfl⟩
  · exact hm
  · exact executeAll_keeps rounds program m hm

/-- No program puts anything back into the input. -/
theorem Ends.unread_le (h : m.Ends source outcome k) :
    k.streams.input.unread.length ≤ m.streams.input.unread.length := by
  rcases h.left_cases with rfl | ⟨rounds, program, rfl⟩
  · exact Nat.le_refl _
  · obtain ⟨taken, hinput, -⟩ := executeAll_neverReadsAhead rounds program m
    rw [hinput]
    simp only [Input.behind, List.length_append]
    exact Nat.le_add_left _ _

end Machine

end Parlance
