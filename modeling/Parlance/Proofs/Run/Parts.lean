import Parlance.Interpreter
import Parlance.Proofs.Sequencing

/-!
# The parts of a program

A program acts through four things: it asks for the value of a variable, gives one to a variable, says a
text, or calls a method. `Program.parts` lists them with their names and tokens. All else about a
program is how they are put together, by sequences, choices and loops.

So a property of runs that sequences keep (`Run.Sequential`) holds of a program if it holds of the parts
of the program (`executeAll_has`). The induction over programs is made here, once, and names no property;
a law about all programs is left with what it says about single actions. A call is opened in the same
way: `Run.Callable` lists the few actions that methods are made of, and `Method.invoke_has` puts them
together.

## What this does not cover

Laws that compare a program with another one. Their two sides have different parts.
-/

namespace Parlance

/-! ## Parts -/

/-- What a program acts through. -/
inductive Part where
  /-- A variable is asked for its value. -/
  | reference (start : Token) (name : String)
  /-- A variable is given a value. -/
  | target (name : String)
  /-- A text is said. -/
  | say (start : Token)
  /-- A method is called. -/
  | call (start : Token) (name : String)
deriving DecidableEq

mutual
/-- The parts of an expression, in the order in which they act. -/
def Expression.parts : Expression → List Part
  | .number _ _ => []
  | .text _ _ => []
  | .reference start name => [.reference start name]
  | .call target => target.parts
/-- The parts of a call: those of its arguments, then itself. -/
def Call.parts : Call → List Part
  | .mk start name arguments => argumentParts arguments ++ [.call start name]
/-- The parts of arguments. -/
def argumentParts : List Expression → List Part
  | [] => []
  | first :: rest => first.parts ++ argumentParts rest
end

mutual
/-- The parts of a statement, those of its blocks included. -/
def Statement.parts : Statement → List Part
  | .assignNumber _ name _ => [.target name]
  | .assignText _ name _ => [.target name]
  | .assignCall _ name source => source.parts ++ [.target name]
  | .say start value => value.parts ++ [.say start]
  | .perform target => target.parts
  | .group body => body.parts
  | .ifThen _ condition body => condition.parts ++ body.parts
  | .ifElse _ condition body alternative => condition.parts ++ body.parts ++ alternative.parts
  | .whileLoop _ condition body => condition.parts ++ body.parts
/-- The parts of a block. -/
def Block.parts : Block → List Part
  | .mk _ statements => statementParts statements
/-- The parts of statements. -/
def statementParts : List Statement → List Part
  | [] => []
  | first :: rest => first.parts ++ statementParts rest
end

/-- The parts of a program. -/
def Program.parts (program : Program) : List Part := statementParts program

/-- A property of runs holds of a part: of what the part does, with any value, text or arguments. -/
def Part.Has (Has : {α : Type} → Run α → Prop) : Part → Prop
  | reference start name => Has (Run.lookup name start.position)
  | target name => ∀ value, Has (Run.assign name value)
  | say start => ∀ text, Has (Run.console start.position (Console.writeLine text))
  | call start name => ∀ values, Has (Method.invoke name values start.position)

/-! ## Properties that sequences keep -/

namespace Run

/-- A property of runs that a sequence has when both of its runs do. -/
structure Sequential (Has : {α : Type} → Run α → Prop) : Prop where
  pure {α : Type} (v : α) : Has (Pure.pure v : Run α)
  bind {α β : Type} {r : Run α} {f : α → Run β} : Has r → (∀ v, Has (f v)) → Has (r >>= f)
  unfinished : Has (throw .unfinished : Run Unit)

namespace Sequential

variable {Has : {α : Type} → Run α → Prop}

theorem ite (_ : Sequential Has) {α : Type} {p : Prop} [Decidable p] {r s : Run α} (hr : Has r)
    (hs : Has s) : Has (if p then r else s) := by
  split
  · exact hr
  · exact hs

/-- A loop is a sequence of rounds, the last of which may be missing. -/
theorem repeatWhile (h : Sequential Has) {condition : Run Value} {body : Run Unit}
    (hcondition : Has condition) (hbody : Has body) (rounds : Nat) :
    Has (Run.repeatWhile condition body rounds) := by
  induction rounds with
  | zero => exact h.unfinished
  | succ rounds ih =>
    apply h.bind hcondition
    intro value
    exact h.ite (h.bind hbody fun _ => ih) (h.pure ())

end Sequential

end Run

open Run (Sequential)

variable {Has : {α : Type} → Run α → Prop}

/-! ## Programs -/

mutual
/-- An expression has what its parts have. -/
theorem Expression.evaluate_has (h : Sequential Has) : ∀ value : Expression,
    (∀ part ∈ value.parts, part.Has Has) → Has value.evaluate
  | .number _ _, _ => h.pure _
  | .text _ _, _ => h.pure _
  | .reference _ _, hparts => hparts _ List.mem_cons_self
  | .call target, hparts => target.evaluate_has h hparts
/-- A call has what its parts have. -/
theorem Call.evaluate_has (h : Sequential Has) : ∀ target : Call,
    (∀ part ∈ target.parts, part.Has Has) → Has target.evaluate
  | .mk start name arguments, hparts => by
    obtain ⟨harguments, hcall⟩ := List.forall_mem_append.mp hparts
    apply h.bind (evaluateAll_has h arguments harguments)
    exact hcall _ List.mem_cons_self
/-- Arguments have what their parts have. -/
theorem evaluateAll_has (h : Sequential Has) : ∀ arguments : List Expression,
    (∀ part ∈ argumentParts arguments, part.Has Has) → Has (evaluateAll arguments)
  | [], _ => h.pure _
  | first :: rest, hparts => by
    obtain ⟨hfirst, hrest⟩ := List.forall_mem_append.mp hparts
    apply h.bind (first.evaluate_has h hfirst)
    intro value
    exact h.bind (evaluateAll_has h rest hrest) fun values => h.pure _
end

mutual
/-- A statement has what its parts have. -/
theorem Statement.execute_has (h : Sequential Has) (rounds : Nat) : ∀ statement : Statement,
    (∀ part ∈ statement.parts, part.Has Has) → Has (statement.execute rounds)
  | .assignNumber _ _ _, hparts => hparts _ List.mem_cons_self _
  | .assignText _ _ _, hparts => hparts _ List.mem_cons_self _
  | .assignCall _ name source, hparts => by
    obtain ⟨hsource, htarget⟩ := List.forall_mem_append.mp hparts
    exact h.bind (source.evaluate_has h hsource) (htarget _ List.mem_cons_self)
  | .say start value, hparts => by
    obtain ⟨hvalue, hsay⟩ := List.forall_mem_append.mp hparts
    exact h.bind (value.evaluate_has h hvalue) fun shown => hsay _ List.mem_cons_self shown.display
  | .perform target, hparts => h.bind (target.evaluate_has h hparts) fun _ => h.pure _
  | .group body, hparts => body.execute_has h rounds hparts
  | .ifThen _ condition body, hparts => by
    obtain ⟨hcondition, hbody⟩ := List.forall_mem_append.mp hparts
    apply h.bind (condition.evaluate_has h hcondition)
    intro value
    exact h.ite (body.execute_has h rounds hbody) (h.pure _)
  | .ifElse _ condition body alternative, hparts => by
    obtain ⟨hparts, halternative⟩ := List.forall_mem_append.mp hparts
    obtain ⟨hcondition, hbody⟩ := List.forall_mem_append.mp hparts
    apply h.bind (condition.evaluate_has h hcondition)
    intro value
    exact h.ite (body.execute_has h rounds hbody) (alternative.execute_has h rounds halternative)
  | .whileLoop _ condition body, hparts => by
    obtain ⟨hcondition, hbody⟩ := List.forall_mem_append.mp hparts
    exact h.repeatWhile (condition.evaluate_has h hcondition) (body.execute_has h rounds hbody) rounds
/-- A block has what its parts have. -/
theorem Block.execute_has (h : Sequential Has) (rounds : Nat) : ∀ block : Block,
    (∀ part ∈ block.parts, part.Has Has) → Has (block.execute rounds)
  | .mk _ statements, hparts => executeAll_has h rounds statements hparts
/-- **A program has what its parts have.** -/
theorem executeAll_has (h : Sequential Has) (rounds : Nat) : ∀ statements : List Statement,
    (∀ part ∈ statementParts statements, part.Has Has) → Has (executeAll rounds statements)
  | [], _ => h.pure _
  | first :: rest, hparts => by
    obtain ⟨hfirst, hrest⟩ := List.forall_mem_append.mp hparts
    exact h.bind (first.execute_has h rounds hfirst) fun _ => executeAll_has h rounds rest hrest
end

/-! ## Methods -/

/-- Asks for a number until a line is one. -/
def Method.askUntilRead (prompt : String) (position : Position) : Run Number := do
  askNumber prompt position ((← get).streams.input.unread.length + 1)

theorem Method.askUntilRead_apply (prompt : String) (position : Position) (m : Machine) :
    askUntilRead prompt position m =
      askNumber prompt position (m.streams.input.unread.length + 1) m := rfl

/-- A property of runs holds of the ways in which a call at a place uses the machine. Asking for a number
is one of them: how often it is done is read off the input. -/
structure Run.Callable (Has : {α : Type} → Run α → Prop) (position : Position) : Prop where
  fail {α : Type} (fault : RuntimeFault) : Has (Run.fail fault position : Run α)
  prompt (text : String) : Has (Run.console position (Console.prompt text))
  readLine : Has (Run.console position Console.readLine)
  writeLine (text : String) : Has (Run.console position (Console.writeLine text))
  askUntilRead (prompt : String) : (∀ rounds, Has (Method.askNumber prompt position rounds)) →
    Has (Method.askUntilRead prompt position)

namespace Method

open Run (Callable)

variable {position : Position}

/-- A computed result is a value or a failure at the place of the call. -/
theorem ofExcept_has (h : Sequential Has) (hcall : Callable Has position) {α : Type}
    (result : Except RuntimeFault α) : Has (Run.ofExcept position result) := by
  cases result with
  | ok value => exact h.pure value
  | error fault => exact hcall.fail fault

/-- Asking again and again is made of prompts, lines and notices; by induction on the rounds. -/
theorem askNumber_has (h : Sequential Has) (hcall : Callable Has position) (prompt : String)
    (rounds : Nat) : Has (askNumber prompt position rounds) := by
  induction rounds with
  | zero => exact hcall.fail _
  | succ rounds ih =>
    apply h.bind (hcall.prompt prompt)
    intro _
    apply h.bind hcall.readLine
    rintro (_ | line)
    · exact hcall.fail _
    · dsimp only
      split
      · exact h.pure _
      · exact h.bind (hcall.writeLine _) fun _ => ih

/-- Every method is made of what may be called. -/
theorem apply_has (h : Sequential Has) (hcall : Callable Has position) (method : Method)
    (values : List Value) : Has (method.apply values position) := by
  unfold apply
  apply h.bind (ofExcept_has h hcall _)
  intro _
  split
  · rename_i prompt
    apply h.bind (ofExcept_has h hcall prompt.toText)
    intro text
    have hasked := hcall.askUntilRead text (askNumber_has h hcall text)
    have hresult := h.bind hasked fun number => h.pure (Value.number number)
    rwa [askUntilRead, bind_assoc] at hresult
  · apply h.bind (ofExcept_has h hcall _)
    intro text
    refine h.bind (h.bind (hcall.prompt text) fun _ => ?_) fun _ => h.pure _
    exact h.bind hcall.readLine fun _ => h.pure _
  · exact ofExcept_has h hcall _

/-- A call has what the actions have that methods are made of. -/
theorem invoke_has (h : Sequential Has) (hcall : Callable Has position) (name : String)
    (values : List Value) : Has (invoke name values position) := by
  unfold invoke
  split
  · exact apply_has h hcall _ values
  · exact hcall.fail _

end Method

end Parlance
