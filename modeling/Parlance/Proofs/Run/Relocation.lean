import Parlance.Proofs.Program.Relocation
import Parlance.Proofs.Run.Rounds

/-!
# Runs of moved programs

The places in a program have one use while it runs: a failure is reported at one of them. So the run of
a moved program is the run of the program with the places of its failures moved
(`executeAll_relocate`): the same machine at the end, the same values, the same loops, and the same
fault.

`Run.relocate` moves the place of a failure and leaves everything else of a run alone. It goes through
sequences and loops, which reduces the law to the few actions that fail at a place of their own.
-/

namespace Parlance

/-- An interruption whose error stands at another place. -/
def Interruption.relocate (move : Position → Position) : Interruption → Interruption
  | .failed error => .failed (error.relocate move)
  | .unfinished => .unfinished

namespace Run

open Sequencing

variable {α β : Type} {move : Position → Position}

/-- A run that fails at other places. -/
def relocate (move : Position → Position) (r : Run α) : Run α := fun m =>
  match r m with
  | .ok v k => .ok v k
  | .error e k => .error (e.relocate move) k

/-! ## Actions -/

@[simp] theorem relocate_pure (v : α) : relocate move (pure v) = pure v := rfl

/-- A failure stands at the moved place. -/
@[simp] theorem relocate_fail (fault : RuntimeFault) (position : Position) :
    relocate move (fail fault position : Run α) = fail fault (move position) := rfl

/-- A run that is cut short reports no place. -/
@[simp] theorem relocate_unfinished :
    relocate move (throw .unfinished : Run α) = throw .unfinished := rfl

@[simp] theorem relocate_get : relocate move (get : Run Machine) = get := rfl

/-- A variable holds a value without its place. -/
@[simp] theorem relocate_assign (name : String) (value : Value) :
    relocate move (assign name value) = assign name value := rfl

/-- A sequence fails at moved places if its parts do. -/
@[simp] theorem relocate_bind (r : Run α) (f : α → Run β) :
    relocate move (r >>= f) = relocate move r >>= fun v => relocate move (f v) := by
  funext m
  rw [bind_apply, relocate, relocate, bind_apply]
  cases r m <;> rfl

@[simp] theorem relocate_ite (p : Prop) [Decidable p] (r s : Run α) :
    relocate move (if p then r else s) = if p then relocate move r else relocate move s := by
  split <;> rfl

/-- A fault that was computed is placed where the action is. -/
@[simp] theorem relocate_ofExcept (position : Position) (result : Except RuntimeFault α) :
    relocate move (ofExcept position result) = ofExcept (move position) result := by
  cases result <;> rfl

/-- A fault of the streams is placed where the action is. -/
@[simp] theorem relocate_console (position : Position) (action : Console α) :
    relocate move (console position action) = console (move position) action := by
  funext m
  rw [relocate, console, console]
  cases action m.streams with
  | ok v streams => rfl
  | error stop streams => cases stop <;> rfl

/-- A missing variable is reported where it is looked up. -/
@[simp] theorem relocate_lookup (name : String) (position : Position) :
    relocate move (lookup name position) = lookup name (move position) := by
  simp [lookup]

/-- A loop moves with its condition and its body; by induction on the rounds. -/
@[simp] theorem relocate_repeatWhile (condition : Run Value) (body : Run Unit) (rounds : Nat) :
    relocate move (repeatWhile condition body rounds) =
      repeatWhile (relocate move condition) (relocate move body) rounds := by
  induction rounds with
  | zero => rfl
  | succ rounds ih => simp [repeatWhile, ih]

end Run

/-! ## Methods -/

open Run

variable {move : Position → Position}

namespace Method

/-- Asking again and again fails at the place of the call, if at all. -/
theorem askNumber_relocate (prompt : String) (position : Position) (rounds : Nat) :
    relocate move (askNumber prompt position rounds) = askNumber prompt (move position) rounds := by
  induction rounds with
  | zero => rfl
  | succ rounds ih =>
    rw [askNumber, askNumber, relocate_bind, relocate_console]
    congr 1
    funext _
    rw [relocate_bind, relocate_console]
    congr 1
    funext line
    cases line with
    | none => rfl
    | some line =>
      dsimp only
      cases Number.read? (String.ofList (Text.trim line.toList)) with
      | some value => rfl
      | none =>
        dsimp only
        rw [relocate_bind, relocate_console, ih]

/-- Every fault of a method is placed where it is called. -/
theorem apply_relocate (method : Method) (arguments : List Value) (position : Position) :
    relocate move (method.apply arguments position) = method.apply arguments (move position) := by
  unfold apply
  rw [relocate_bind, relocate_ofExcept]
  congr 1
  funext _
  split
  · simp only [relocate_bind, relocate_ofExcept, relocate_get, relocate_pure, askNumber_relocate]
  · simp only [askText, relocate_bind, relocate_ofExcept, relocate_console, relocate_pure]
  · exact relocate_ofExcept _ _

/-- A method that does not exist is reported where it is called. -/
theorem invoke_relocate (name : String) (arguments : List Value) (position : Position) :
    relocate move (invoke name arguments position) = invoke name arguments (move position) := by
  unfold invoke
  cases find? name with
  | none => rfl
  | some method => exact method.apply_relocate arguments position

end Method

/-! ## Expressions -/

mutual
/-- A moved expression has the same value, or fails with the same fault at the moved place. -/
theorem Expression.evaluate_relocate : ∀ value : Expression,
    (value.relocate move).evaluate = Run.relocate move value.evaluate
  | .number _ _ => rfl
  | .text _ _ => rfl
  | .reference start name => (relocate_lookup name start.position).symm
  | .call target => target.evaluate_relocate
/-- A call is moved with its arguments. -/
theorem Call.evaluate_relocate : ∀ target : Call,
    (target.relocate move).evaluate = Run.relocate move target.evaluate
  | .mk start name arguments => by
    rw [Call.relocate, Call.evaluate, Call.evaluate, relocate_bind, evaluateAll_relocate arguments]
    simp only [Method.invoke_relocate]
    rfl
/-- Arguments are moved one by one. -/
theorem evaluateAll_relocate : ∀ arguments : List Expression,
    evaluateAll (relocateArguments move arguments) = Run.relocate move (evaluateAll arguments)
  | [] => rfl
  | first :: rest => by
    rw [relocateArguments, evaluateAll, evaluateAll, relocate_bind, first.evaluate_relocate,
      evaluateAll_relocate rest]
    simp only [relocate_bind, relocate_pure]
end

/-! ## Statements -/

variable {rounds : Nat}

mutual
/-- A moved statement does the same, and fails with the same fault at the moved place. -/
theorem Statement.execute_relocate : ∀ statement : Statement,
    (statement.relocate move).execute rounds = Run.relocate move (statement.execute rounds)
  | .assignNumber _ _ _ => rfl
  | .assignText _ _ _ => rfl
  | .assignCall start name source => by
    simp only [Statement.relocate, Statement.execute, relocate_bind, relocate_assign,
      source.evaluate_relocate]
  | .say start value => by
    simp only [Statement.relocate, Statement.execute, relocate_bind, relocate_console,
      value.evaluate_relocate]
    rfl
  | .perform target => by
    simp only [Statement.relocate, Statement.execute, relocate_bind, relocate_pure,
      target.evaluate_relocate]
  | .group body => body.execute_relocate
  | .ifThen start condition body => by
    simp only [Statement.relocate, Statement.execute, relocate_bind, relocate_ite, relocate_pure,
      condition.evaluate_relocate, body.execute_relocate]
  | .ifElse start condition body alternative => by
    simp only [Statement.relocate, Statement.execute, relocate_bind, relocate_ite,
      condition.evaluate_relocate, body.execute_relocate, alternative.execute_relocate]
  | .whileLoop start condition body => by
    simp only [Statement.relocate, Statement.execute, relocate_repeatWhile,
      condition.evaluate_relocate, body.execute_relocate]
/-- A block is moved with its statements. -/
theorem Block.execute_relocate : ∀ block : Block,
    (block.relocate move).execute rounds = Run.relocate move (block.execute rounds)
  | .mk _ statements => executeAll_relocate statements
/-- Statements are moved one by one: the run of a moved program is the moved run. -/
theorem executeAll_relocate : ∀ statements : List Statement,
    executeAll rounds (relocateStatements move statements) =
      Run.relocate move (executeAll rounds statements)
  | [] => rfl
  | first :: rest => by
    simp only [relocateStatements, executeAll, relocate_bind, first.execute_relocate,
      executeAll_relocate rest]
end

/-! ## Outcomes -/

/-- A failure at another place. -/
def Failure.relocate (move : Position → Position) : Failure → Failure
  | .lexical error => .lexical (error.relocate move)
  | .grammatical error => .grammatical (error.relocate move)
  | .runtime error => .runtime (error.relocate move)

/-- An outcome whose failure stands at another place. -/
def Outcome.relocate (move : Position → Position) : Outcome → Outcome
  | .completed => .completed
  | .failed failure => .failed (failure.relocate move)
  | .unfinished => .unfinished

/-- Running a moved program is moving the place where it fails, if it does. -/
theorem Machine.run_relocate (rounds : Nat) (program : Program) (m : Machine) :
    m.run rounds (program.relocate move) =
      ((m.run rounds program).1.relocate move, (m.run rounds program).2) := by
  rw [Machine.run, Machine.run, Program.execute, Program.execute, Program.relocate,
    executeAll_relocate, Run.relocate]
  cases executeAll rounds program m with
  | ok _ k => rfl
  | error interruption k => cases interruption <;> rfl

end Parlance
