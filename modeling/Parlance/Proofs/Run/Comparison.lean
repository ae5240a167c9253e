import Parlance.Proofs.Run.Rounds
import Parlance.Proofs.Stream.Pieces

/-!
# Runs side by side

Many laws about programs compare two runs: on machines that differ in something the program does not
look at, or that differ in what is still to be read or written. Two results are alike (`Run.Alike`) when
they are both values or both interruptions, the same ones, and leave machines that stand in a given
relation. Runs whose results are alike have the same outcome (`Machine.exists_run_of_alike`).

`Run.left` is the machine that a run leaves, whether it ends in a value or is interrupted.
-/

namespace Parlance

/-- The machine with another input. -/
def Machine.withInput (m : Machine) (input : Input) : Machine :=
  { m with streams := { m.streams with input := input } }

/-- The machine with another output. -/
def Machine.withOutput (m : Machine) (output : Output) : Machine :=
  { m with streams := { m.streams with output := output } }

namespace Run

open Sequencing

variable {α β : Type} {r : Run α} {f : α → Run β} {m k : Machine} {v : α} {e : Interruption}

/-! ## What a run leaves -/

/-- The machine that a run leaves, however it ends. -/
def left (r : Run α) (m : Machine) : Machine :=
  match r m with
  | .ok _ k => k
  | .error _ k => k

/-- A run that has a value leaves the machine of its result. -/
theorem left_of_ok (h : r m = .ok v k) : left r m = k := by rw [left, h]

theorem left_of_error (h : r m = .error e k) : left r m = k := by rw [left, h]

theorem left_congr {s : Run α} (h : r m = s m) : left r m = left s m := by rw [left, h, left]

/-- Behind a first part that has a value, the second part decides what is left. -/
theorem left_bind_of_ok (h : r m = .ok v k) : left (r >>= f) m = left (f v) k := by
  rw [left, bind_of_ok h, left]

/-- Where the first part is interrupted, the second does nothing. -/
theorem left_bind_of_error (h : r m = .error e k) : left (r >>= f) m = k :=
  left_of_error (bind_eq_error.mpr (.inl h))

/-- A result that was computed, good or bad, leaves the machine as it is. -/
theorem left_ofExcept (position : Position) (result : Except RuntimeFault α) (m : Machine) :
    left (ofExcept position result) m = m := by
  cases result <;> rfl

/-- A variable is looked up without a change, be it there or not. -/
theorem left_lookup (name : String) (position : Position) (m : Machine) :
    left (lookup name position) m = m :=
  left_ofExcept position (m.environment.get name) m

/-- An action on the streams leaves the variables alone, also when it fails. -/
theorem environment_left_console (position : Position) (action : Console α) (m : Machine) :
    (left (console position action) m).environment = m.environment := by
  unfold left console
  cases action m.streams with
  | ok v streams => rfl
  | error stop streams => cases stop <;> rfl

/-! ## What an action does to the streams -/

/-- A line is written with its end, and a fault of the output is one at the place of the action. -/
theorem console_writeLine (position : Position) (text : String) (m : Machine) :
    console position (Console.writeLine text) m = match m.streams.output.write (text ++ "\n") with
      | (none, output) => .ok () (m.withOutput output)
      | (some fault, output) => .error (.failed ⟨.stream fault, position⟩) (m.withOutput output) := by
  rw [Console.writeLine_eq_write]
  unfold console Console.write
  rcases m.streams.output.write (text ++ "\n") with ⟨_ | fault, output⟩ <;> rfl

/-- A prompt is written and then flushed; either may fail. -/
theorem console_prompt (position : Position) (text : String) (m : Machine) :
    console position (Console.prompt text) m = match m.streams.output.write text with
      | (none, output) =>
        if output.flushFails then .error (.failed ⟨.stream .flushFailed, position⟩) (m.withOutput output)
        else .ok () (m.withOutput output)
      | (some fault, output) => .error (.failed ⟨.stream fault, position⟩) (m.withOutput output) := by
  rw [console, Console.prompt, bind_apply]
  unfold Console.write Console.flush
  rcases m.streams.output.write text with ⟨_ | fault, output⟩
  · dsimp only
    cases output.flushFails <;> rfl
  · rfl

/-- A line is read, or there is none, or its bytes are no text, or no line ever comes. -/
theorem console_readLine (position : Position) (m : Machine) :
    console position Console.readLine m = match m.streams.input.readLine with
      | (.line text, rest) => .ok (some text) (m.withInput rest)
      | (.over, rest) => .ok none (m.withInput rest)
      | (.failed fault, rest) => .error (.failed ⟨.stream fault, position⟩) (m.withInput rest)
      | (.pending, rest) => .error .unfinished (m.withInput rest) := by
  unfold console Console.readLine
  rcases m.streams.input.readLine with ⟨_ | _ | _ | _, rest⟩ <;> rfl

/-! ## Results that are alike -/

/-- Two results are the same but for the machines that are left, which are related. -/
inductive Alike (R : Machine → Machine → Prop) :
    EStateM.Result Interruption Machine α → EStateM.Result Interruption Machine α → Prop
  | ok {k k' : Machine} (v : α) : R k k' → Alike R (.ok v k) (.ok v k')
  | error {k k' : Machine} (e : Interruption) : R k k' → Alike R (.error e k) (.error e k')

namespace Alike

variable {R : Machine → Machine → Prop} {result : EStateM.Result Interruption Machine α}

/-- What is like a value is the same value. -/
theorem exists_of_ok (h : Alike R (.ok v k) result) : ∃ k', result = .ok v k' ∧ R k k' := by
  cases h with
  | ok v hk => exact ⟨_, rfl, hk⟩

/-- What is like an interruption is the same interruption. -/
theorem exists_of_error (h : Alike R (.error e k) result) : ∃ k', result = .error e k' ∧ R k k' := by
  cases h with
  | error e hk => exact ⟨_, rfl, hk⟩

/-- Results that are alike stay so in a weaker relation. -/
theorem mono {S : Machine → Machine → Prop} {result' : EStateM.Result Interruption Machine α}
    (h : Alike R result result') (hrelated : ∀ {k k'}, R k k' → S k k') : Alike S result result' := by
  cases h with
  | ok v hk => exact .ok v (hrelated hk)
  | error e hk => exact .error e (hrelated hk)

/-- The second parts begin at related machines with the same value, so a sequence of runs that are
alike gives results that are. -/
theorem bind {r' : Run α} {f' : α → Run β} {m' : Machine} (hr : Alike R (r m) (r' m'))
    (hf : ∀ v k k', R k k' → Alike R (f v k) (f' v k')) :
    Alike R ((r >>= f) m) ((r' >>= f') m') := by
  rw [bind_apply, bind_apply]
  generalize r m = first at hr
  generalize r' m' = second at hr
  cases hr with
  | ok v hk => exact hf v _ _ hk
  | error e hk => exact .error e hk

end Alike

end Run

/-! ## Programs -/

namespace Machine

open Run (Alike left)

variable {rounds : Nat} {program : Program} {m m' k : Machine} {outcome : Outcome}

/-- The machine at the end of a program is the one its statements leave. -/
theorem left_of_run (h : m.run rounds program = (outcome, k)) :
    left (executeAll rounds program) m = k := by
  unfold run Program.execute at h
  unfold left
  cases hm : executeAll rounds program m with
  | ok v machine =>
    rw [hm] at h
    cases h
    rfl
  | error e machine =>
    rw [hm] at h
    cases e <;> cases h <;> rfl

/-- A run whose result is alike has the same outcome. -/
theorem exists_run_of_alike {R : Machine → Machine → Prop}
    (h : Alike R (executeAll rounds program m) (executeAll rounds program m'))
    (hrun : m.run rounds program = (outcome, k)) :
    ∃ k', m'.run rounds program = (outcome, k') ∧ R k k' := by
  unfold run Program.execute at hrun ⊢
  cases hm : executeAll rounds program m with
  | ok v machine =>
    rw [hm] at h hrun
    cases hrun
    obtain ⟨k', hm', hk⟩ := h.exists_of_ok
    exact ⟨k', by rw [hm'], hk⟩
  | error e machine =>
    rw [hm] at h hrun
    obtain ⟨k', hm', hk⟩ := h.exists_of_error
    rw [hm']
    cases e <;> cases hrun <;> exact ⟨k', rfl, hk⟩

end Machine

end Parlance
