import Parlance.Proofs.Run.Comparison

/-!
# Programs that ask for nothing

Only `readNumber` and `readString` touch the streams from within an expression. Without a call of one
of them, under any spelling of its name, an expression is a question to the variables: its result is
decided by them, and nothing changes (`Expression.answers`). A statement then uses the streams only
to write, so a run that comes to its end can be repeated on other streams: from the same variables, on
an output without a limit, it leaves the same variables and has written the same text
(`executeAll_writesOnly`).

## What this does not decide

What is left of a run that fails. A limited output may end one run inside a text and another not at
all.
-/

namespace Parlance

/-! ## Text added to an output -/

namespace Output

/-- An output with a text added to what was written. -/
def append (output : Output) (text : String) : Output :=
  { output with written := output.written ++ text.toUTF8 }

@[simp] theorem limit_append (output : Output) (text : String) :
    (output.append text).limit = output.limit := rfl

@[simp] theorem flushFails_append (output : Output) (text : String) :
    (output.append text).flushFails = output.flushFails := rfl

@[simp] theorem append_empty (output : Output) : output.append "" = output := by
  rw [append, String.toUTF8_eq_toByteArray, String.toByteArray_empty, ByteArray.append_empty]

/-- Two texts that are written one behind the other are one text that is written. -/
@[simp] theorem append_append (output : Output) (first second : String) :
    (output.append first).append second = output.append (first ++ second) := by
  simp only [append, String.toUTF8_eq_toByteArray, String.toByteArray_append, ByteArray.append_assoc]

/-- An output without a limit takes every text whole. -/
theorem write_of_unlimited {output : Output} (h : output.limit = none) (text : String) :
    output.write text = (none, output.append text) := by
  have haccepts : output.accepts text.toUTF8.size = true := by rw [accepts, h]
  rw [write, if_pos haccepts]
  rfl

/-- An output that never fails. -/
structure Unfailing (output : Output) : Prop where
  unlimited : output.limit = none
  flushes : output.flushFails = false

/-- A fresh output never fails. -/
theorem unfailing_empty : empty.Unfailing := ⟨rfl, rfl⟩

/-- An output that never fails still does not when something is written to it. -/
theorem Unfailing.append {output : Output} (h : output.Unfailing) (text : String) :
    (output.append text).Unfailing := ⟨h.unlimited, h.flushes⟩

/-- What is written without a fault is written in full. -/
theorem eq_append_of_write {output other : Output} {text : String}
    (h : output.write text = (none, other)) : other = output.append text := by
  unfold write at h
  dsimp only at h
  split at h <;> cases h
  rfl

end Output

namespace Streams

/-- The streams with a text added to what was written. -/
def append (streams : Streams) (text : String) : Streams :=
  { streams with output := streams.output.append text }

@[simp] theorem output_append (streams : Streams) (text : String) :
    (streams.append text).output = streams.output.append text := rfl

@[simp] theorem append_empty (streams : Streams) : streams.append "" = streams := by
  rw [append, Output.append_empty]

/-- Two texts that are written one behind the other are one text that is written. -/
@[simp] theorem append_append (streams : Streams) (first second : String) :
    (streams.append first).append second = streams.append (first ++ second) := by
  simp only [append, Output.append_append]

end Streams

namespace Console

open Sequencing

/-- The action of writing succeeds on an output without a limit. -/
theorem write_of_unlimited {streams : Streams} (h : streams.output.limit = none) (text : String) :
    write text streams = .ok () (streams.append text) := by
  rw [write, Output.write_of_unlimited h]
  rfl

/-- A write that succeeded took the whole text and left the input alone. -/
theorem eq_append_of_write {streams other : Streams} {text : String}
    (h : write text streams = .ok () other) : other = streams.append text := by
  unfold write at h
  cases hwritten : streams.output.write text with
  | mk fault output =>
    rw [hwritten] at h
    cases fault with
    | some fault => cases h
    | none =>
      cases h
      rw [Output.eq_append_of_write hwritten]
      rfl

variable {streams : Streams}

/-- A prompt is shown where neither the write nor the flush can fail. -/
theorem prompt_of_unfailing (h : streams.output.Unfailing) (text : String) :
    prompt text streams = .ok () (streams.append text) := by
  rw [prompt, bind_of_ok (write_of_unlimited h.unlimited text), flush, if_neg]
  rw [Streams.output_append, Output.flushFails_append, h.flushes]
  exact Bool.false_ne_true

/-- A line that is there is read, and what follows it is left. -/
theorem readLine_of_line {line : String} {rest : Input}
    (h : streams.input.readLine = (.line line, rest)) :
    readLine streams = .ok (some line) ⟨rest, streams.output⟩ := by
  rw [readLine, h]

/-- Where the input is over, there is no line, which is no failure. -/
theorem readLine_of_over {rest : Input} (h : streams.input.readLine = (.over, rest)) :
    readLine streams = .ok none ⟨rest, streams.output⟩ := by
  rw [readLine, h]

end Console

/-- A machine that has this input left and has written one more text. -/
def Machine.advance (m : Machine) (rest : Input) (text : String) : Machine :=
  ⟨m.environment, rest, m.streams.output.append text⟩

@[simp] theorem Machine.advance_empty (m : Machine) : m.advance m.streams.input "" = m := by
  rw [advance, Output.append_empty]

/-- Two steps through the streams are one: the input is the later one, and the texts add up. -/
@[simp] theorem Machine.advance_advance (m : Machine) (rest rest' : Input) (text text' : String) :
    (m.advance rest text).advance rest' text' = m.advance rest' (text ++ text') := by
  simp only [advance, Output.append_append]

namespace Run

open Sequencing

variable {α β : Type}

/-! ## Questions to the variables -/

/-- The run that has a result and does nothing. -/
def settle : Except Interruption α → Run α
  | .ok v => pure v
  | .error e => throw e

/-- A run whose result is decided by the variables, and which changes nothing. -/
def Observes (r : Run α) : Prop :=
  ∀ environment : Environment, ∃ result : Except Interruption α, ∀ streams : Streams,
    r ⟨environment, streams⟩ = settle result ⟨environment, streams⟩

/-- A run that observes and is never cut off: the variables decide its value or its error. -/
def Answers (r : Run α) : Prop :=
  ∀ environment : Environment, ∃ answer : Except RuntimeError α, ∀ streams : Streams,
    r ⟨environment, streams⟩ = settle (answer.mapError .failed) ⟨environment, streams⟩

namespace Answers

/-- What the variables decide is not cut off, and observes all the more. -/
theorem observes {r : Run α} (h : Answers r) : Observes r := by
  intro environment
  obtain ⟨answer, hanswer⟩ := h environment
  exact ⟨_, hanswer⟩

theorem pure (v : α) : Answers (Pure.pure v) := fun _ => ⟨.ok v, fun _ => rfl⟩

/-- A failure is decided before the run. -/
theorem fail (fault : RuntimeFault) (position : Position) :
    Answers (Run.fail fault position : Run α) :=
  fun _ => ⟨.error ⟨fault, position⟩, fun _ => rfl⟩

/-- A computed result is decided before the run. -/
theorem ofExcept (position : Position) (result : Except RuntimeFault α) :
    Answers (Run.ofExcept position result) := by
  cases result with
  | ok v => exact pure v
  | error fault => exact fail fault position

/-- The value of a variable is decided by the variables, or there is none. -/
theorem lookup (name : String) (position : Position) : Answers (Run.lookup name position) := by
  intro environment
  obtain ⟨answer, hanswer⟩ := ofExcept position (environment.get name) environment
  exact ⟨answer, hanswer⟩

/-- If every part is decided by the variables, the whole is, since no part changes them. -/
theorem bind {r : Run α} {f : α → Run β} (hr : Answers r) (hf : ∀ v, Answers (f v)) :
    Answers (r >>= f) := by
  intro environment
  obtain ⟨answer, hanswer⟩ := hr environment
  cases answer with
  | error e =>
    refine ⟨.error e, fun streams => ?_⟩
    rw [bind_apply, hanswer streams]
    rfl
  | ok v =>
    obtain ⟨answer', hanswer'⟩ := hf v environment
    refine ⟨answer', fun streams => ?_⟩
    rw [bind_of_ok (hanswer streams), hanswer' streams]

/-- What a run answers is a function of the variables. -/
theorem exists_function {r : Run α} (h : Answers r) :
    ∃ answer : Environment → Except RuntimeError α, ∀ m : Machine,
      r m = settle ((answer m.environment).mapError .failed) m := by
  obtain ⟨answer, hanswer⟩ := Classical.skolem.mp h
  exact ⟨answer, fun m => hanswer m.environment m.streams⟩

end Answers

namespace Observes

theorem throw (e : Interruption) : Observes (MonadExcept.throw e : Run α) :=
  fun _ => ⟨.error e, fun _ => rfl⟩

/-- A run that observes leaves the machine as it is. -/
theorem left_eq {r : Run α} (h : Observes r) (m : Machine) : left r m = m := by
  obtain ⟨result, hresult⟩ := h m.environment
  rw [left, show r m = settle result m from hresult m.streams]
  cases result <;> rfl

/-- With the same variables, the result is the same. -/
theorem alike {r : Run α} (h : Observes r) {m m' : Machine} (hsame : m.environment = m'.environment) :
    Alike (fun k k' => k = m ∧ k' = m') (r m) (r m') := by
  obtain ⟨result, hresult⟩ := h m.environment
  obtain ⟨environment, streams⟩ := m
  obtain ⟨_, streams'⟩ := m'
  cases hsame
  rw [hresult streams, hresult streams']
  cases result with
  | ok v => exact .ok v ⟨rfl, rfl⟩
  | error e => exact .error e ⟨rfl, rfl⟩

end Observes

/-! ## Runs that only write -/

/-- What a run does to the streams before it comes to its end is to write a text, and it does the same
from the same variables on any streams whose output has no limit. -/
def WritesOnly (r : Run α) : Prop :=
  ∀ (m k : Machine) (v : α), r m = .ok v k → ∃ text : String, k.streams = m.streams.append text ∧
    ∀ streams : Streams, streams.output.limit = none →
      r ⟨m.environment, streams⟩ = .ok v ⟨k.environment, streams.append text⟩

/-- A run that answers writes the empty text. -/
theorem Answers.writesOnly {r : Run α} (h : Answers r) : WritesOnly r := by
  intro m k v hrun
  obtain ⟨answer, hanswer⟩ := h m.environment
  cases answer with
  | error e =>
    rw [hanswer m.streams] at hrun
    cases hrun
  | ok w =>
    rw [hanswer m.streams] at hrun
    cases hrun
    refine ⟨"", by simp, fun streams _ => ?_⟩
    rw [hanswer streams, Streams.append_empty]
    rfl

namespace WritesOnly

/-- An assignment writes nothing. -/
theorem assign (name : String) (value : Value) : WritesOnly (Run.assign name value) := by
  intro m k v hrun
  cases hrun
  refine ⟨"", by simp, fun streams _ => ?_⟩
  rw [Streams.append_empty]
  rfl

/-- A line is written with its end. -/
theorem writeLine (position : Position) (text : String) :
    WritesOnly (Run.console position (Console.writeLine text)) := by
  intro m k v hrun
  rw [Console.writeLine_eq_write]
  rw [Console.writeLine_eq_write] at hrun
  unfold Run.console at hrun ⊢
  cases hwritten : Console.write (text ++ "\n") m.streams with
  | error stop streams =>
    rw [hwritten] at hrun
    cases stop <;> cases hrun
  | ok w streams =>
    rw [hwritten] at hrun
    cases hrun
    refine ⟨text ++ "\n", Console.eq_append_of_write hwritten, fun streams hlimit => ?_⟩
    dsimp only
    rw [Console.write_of_unlimited hlimit]

/-- Texts that are written one behind the other are one text. -/
theorem bind {r : Run α} {f : α → Run β} (hr : WritesOnly r) (hf : ∀ v, WritesOnly (f v)) :
    WritesOnly (r >>= f) := by
  intro m k w hrun
  obtain ⟨v, middle, hfirst, hsecond⟩ := bind_eq_ok.mp hrun
  obtain ⟨text, hmiddle, hrepeat⟩ := hr m middle v hfirst
  obtain ⟨text', hk, hrepeat'⟩ := hf v middle k w hsecond
  refine ⟨text ++ text', by rw [hk, hmiddle, Streams.append_append], fun streams hlimit => ?_⟩
  rw [bind_of_ok (hrepeat streams hlimit), hrepeat' _ (by simpa using hlimit), Streams.append_append]

theorem ite {p : Prop} [Decidable p] {r s : Run α} (hr : WritesOnly r) (hs : WritesOnly s) :
    WritesOnly (if p then r else s) := by
  split
  · exact hr
  · exact hs

/-- A loop writes what its rounds write; by induction on the rounds. -/
theorem repeatWhile {condition : Run Value} {body : Run Unit} (hcondition : WritesOnly condition)
    (hbody : WritesOnly body) (rounds : Nat) :
    WritesOnly (Run.repeatWhile condition body rounds) := by
  induction rounds with
  | zero =>
    intro m k v hrun
    cases hrun
  | succ rounds ih =>
    refine bind hcondition fun value => ?_
    exact ite (bind hbody fun _ => ih) (Answers.pure ()).writesOnly

end WritesOnly

end Run

open Run (Answers WritesOnly)

/-! ## Calls that ask -/

/-- Whether a name is one of those that ask the user, in any case. -/
def Method.asks (name : String) : Bool :=
  sameName readNumber.name name || sameName readString.name name

mutual
/-- Whether some call within an expression asks the user. -/
def Expression.asks : Expression → Bool
  | .call target => target.asks
  | _ => false
/-- Whether a call, or some call within it, asks the user. -/
def Call.asks : Call → Bool
  | .mk _ name arguments => Method.asks name || argumentsAsk arguments
/-- Whether some call within arguments asks the user. -/
def argumentsAsk : List Expression → Bool
  | [] => false
  | first :: rest => first.asks || argumentsAsk rest
end

mutual
/-- Whether some call within a statement asks the user. -/
def Statement.asks : Statement → Bool
  | .assignNumber _ _ _ => false
  | .assignText _ _ _ => false
  | .assignCall _ _ source => source.asks
  | .say _ value => value.asks
  | .perform target => target.asks
  | .group body => body.asks
  | .ifThen _ condition body => condition.asks || body.asks
  | .ifElse _ condition body alternative => condition.asks || body.asks || alternative.asks
  | .whileLoop _ condition body => condition.asks || body.asks
/-- Whether some call within a block asks the user. -/
def Block.asks : Block → Bool
  | .mk _ statements => statementsAsk statements
/-- Whether some call within statements asks the user. -/
def statementsAsk : List Statement → Bool
  | [] => false
  | first :: rest => first.asks || statementsAsk rest
end

/-- Whether some call within a program asks the user. -/
def Program.asks (program : Program) : Bool := statementsAsk program

namespace Method

/-- A method is found only by a name that is its own up to case. -/
theorem ne_of_find? {name : String} {method : Method} (hfound : find? name = some method)
    (hasks : asks name = false) : method ≠ readNumber ∧ method ≠ readString := by
  unfold find? at hfound
  have hname := List.find?_some hfound
  obtain ⟨hnumber, htext⟩ := Bool.or_eq_false_iff.mp hasks
  constructor
  · rintro rfl
    rw [hname] at hnumber
    cases hnumber
  · rintro rfl
    rw [hname] at htext
    cases htext

/-- Methods that do not ask compute their result from their arguments. -/
theorem apply_answers {method : Method} (values : List Value) (position : Position)
    (hnumber : method ≠ readNumber) (htext : method ≠ readString) :
    Answers (method.apply values position) := by
  unfold apply
  refine .bind (.ofExcept _ _) fun _ => ?_
  split
  · exact absurd rfl hnumber
  · exact absurd rfl htext
  · exact .ofExcept _ _

/-- A call by a name that does not ask answers, also if there is no such method. -/
theorem invoke_answers {name : String} (values : List Value) (position : Position)
    (hasks : asks name = false) : Answers (invoke name values position) := by
  unfold invoke
  split
  · rename_i method hfound
    obtain ⟨hnumber, htext⟩ := ne_of_find? hfound hasks
    exact apply_answers values position hnumber htext
  · exact .fail _ _

end Method

mutual
/-- An expression that asks for nothing is a question to the variables. -/
theorem Expression.answers : ∀ value : Expression, value.asks = false → Answers value.evaluate
  | .number _ _, _ => .pure _
  | .text _ _, _ => .pure _
  | .reference _ _, _ => .lookup _ _
  | .call target, h => target.answers h
/-- A call that asks for nothing is a question to the variables. -/
theorem Call.answers : ∀ target : Call, target.asks = false → Answers target.evaluate
  | .mk start name arguments, h => by
    obtain ⟨hname, harguments⟩ := Bool.or_eq_false_iff.mp h
    exact .bind (evaluateAll_answers arguments harguments) fun values =>
      Method.invoke_answers values start.position hname
/-- Arguments that ask for nothing are questions to the variables. -/
theorem evaluateAll_answers : ∀ arguments : List Expression, argumentsAsk arguments = false →
    Answers (evaluateAll arguments)
  | [], _ => .pure _
  | first :: rest, h => by
    obtain ⟨hfirst, hrest⟩ := Bool.or_eq_false_iff.mp h
    refine .bind (first.answers hfirst) fun value => ?_
    exact .bind (evaluateAll_answers rest hrest) fun values => .pure _
end

mutual
/-- A statement that asks for nothing only writes. -/
theorem Statement.writesOnly (rounds : Nat) : ∀ statement : Statement, statement.asks = false →
    WritesOnly (statement.execute rounds)
  | .assignNumber _ _ _, _ => .assign _ _
  | .assignText _ _ _, _ => .assign _ _
  | .assignCall _ name source, h =>
    .bind (source.answers h).writesOnly fun value => .assign name value
  | .say start value, h =>
    .bind (value.answers h).writesOnly fun shown => .writeLine start.position shown.display
  | .perform target, h => (target.answers h).bind (fun _ => .pure _) |>.writesOnly
  | .group body, h => body.writesOnly rounds h
  | .ifThen _ condition body, h => by
    obtain ⟨hcondition, hbody⟩ := Bool.or_eq_false_iff.mp h
    refine .bind (condition.answers hcondition).writesOnly fun value => ?_
    exact .ite (body.writesOnly rounds hbody) (Answers.pure _).writesOnly
  | .ifElse _ condition body alternative, h => by
    obtain ⟨h, halternative⟩ := Bool.or_eq_false_iff.mp h
    obtain ⟨hcondition, hbody⟩ := Bool.or_eq_false_iff.mp h
    refine .bind (condition.answers hcondition).writesOnly fun value => ?_
    exact .ite (body.writesOnly rounds hbody) (alternative.writesOnly rounds halternative)
  | .whileLoop _ condition body, h => by
    obtain ⟨hcondition, hbody⟩ := Bool.or_eq_false_iff.mp h
    exact .repeatWhile (condition.answers hcondition).writesOnly (body.writesOnly rounds hbody) rounds
/-- A block that asks for nothing only writes. -/
theorem Block.writesOnly (rounds : Nat) : ∀ block : Block, block.asks = false →
    WritesOnly (block.execute rounds)
  | .mk _ statements, h => executeAll_writesOnly rounds statements h
/-- Statements that ask for nothing only write. -/
theorem executeAll_writesOnly (rounds : Nat) : ∀ statements : List Statement,
    statementsAsk statements = false → WritesOnly (executeAll rounds statements)
  | [], _ => (Answers.pure _).writesOnly
  | first :: rest, h => by
    obtain ⟨hfirst, hrest⟩ := Bool.or_eq_false_iff.mp h
    exact .bind (first.writesOnly rounds hfirst) fun _ => executeAll_writesOnly rounds rest hrest
end

/-- A program that asks for nothing and comes to its end has only written a text, and does the same
from the same variables on any streams whose output has no limit. -/
theorem Machine.run_elsewhere {rounds : Nat} {program : Program} {m k : Machine}
    (hasks : program.asks = false) (hrun : m.run rounds program = (.completed, k)) :
    ∃ text : String, k.streams = m.streams.append text ∧
      ∀ streams : Streams, streams.output.limit = none →
        Machine.run rounds program ⟨m.environment, streams⟩ =
          (.completed, ⟨k.environment, streams.append text⟩) := by
  obtain ⟨text, hk, hrepeat⟩ :=
    executeAll_writesOnly rounds program hasks m k () (run_eq_completed.mp hrun)
  exact ⟨text, hk, fun streams hlimit => run_eq_completed.mpr (hrepeat streams hlimit)⟩

end Parlance
