import Parlance.Interpreter
import Parlance.Proofs.Sequencing

/-!
# Rounds

A program is run for a number of rounds, which bounds every loop in it. The number is no part of what
the program does: a run that is not cut off is the same run with any larger number
(`Statement.execute_approximates`). So a source text that comes to an end on a machine does so in one
way, whatever the number of rounds (`Machine.Ends.unique`), and "it terminates" can be said without
one: `Machine.Ends`, and `Machine.Finishes` for a program that was not read from a text.

The order behind this is `Run.Approximates`. It is kept by sequences and by loops, so a construct of
the language has it when its parts do.

## What this does not decide

Whether a program comes to an end. A run is also cut off where it waits for input that is not there
yet, and then no number of rounds is enough.
-/

namespace Parlance

namespace Run

open Sequencing

variable {α β : Type}

/-! ## Runs that were cut off -/

/-- Wherever the first run is not cut off, the second one is the same. -/
def Approximates (first second : Run α) : Prop :=
  ∀ m : Machine, (∃ k, first m = .error .unfinished k) ∨ first m = second m

namespace Approximates

theorem refl (r : Run α) : Approximates r r := fun _ => .inr rfl

/-- A sequence that is cut off is cut off in one of its parts. -/
theorem bind {r s : Run α} {f g : α → Run β} (hr : Approximates r s)
    (hf : ∀ v, Approximates (f v) (g v)) : Approximates (r >>= f) (s >>= g) := by
  intro m
  rw [bind_apply, bind_apply]
  rcases hr m with ⟨k, hcut⟩ | hsame
  · exact .inl ⟨k, by rw [hcut]⟩
  · rw [← hsame]
    cases r m with
    | ok v k => exact hf v k
    | error e k => exact .inr rfl

theorem ite {p : Prop} [Decidable p] {r s r' s' : Run α} (hr : Approximates r r')
    (hs : Approximates s s') : Approximates (if p then r else s) (if p then r' else s') := by
  split
  · exact hr
  · exact hs

/-- A loop is cut off when its rounds are over; before that, more of them make no difference. -/
theorem repeatWhile {condition : Run Value} {body body' : Run Unit}
    (hbody : Approximates body body') {few many : Nat} (h : few ≤ many) :
    Approximates (Run.repeatWhile condition body few) (Run.repeatWhile condition body' many) := by
  induction few generalizing many with
  | zero => exact fun m => .inl ⟨m, rfl⟩
  | succ few ih =>
    obtain ⟨many, rfl⟩ : ∃ n, many = n + 1 := ⟨many - 1, by omega⟩
    refine bind (refl condition) ?_
    intro value
    refine ite ?_ (refl _)
    exact bind hbody fun _ => ih (by omega)

end Approximates

end Run

/-! ## Programs -/

open Run (Approximates)

variable {few many : Nat}

mutual
/-- More rounds change nothing about a statement that is not cut off. -/
theorem Statement.execute_approximates (h : few ≤ many) : ∀ statement : Statement,
    Approximates (statement.execute few) (statement.execute many)
  | .assignNumber _ _ _ => .refl _
  | .assignText _ _ _ => .refl _
  | .assignCall _ _ _ => .refl _
  | .say _ _ => .refl _
  | .perform _ => .refl _
  | .group body => body.execute_approximates h
  | .ifThen _ condition body => by
    refine .bind (.refl condition.evaluate) ?_
    intro value
    exact .ite (body.execute_approximates h) (.refl _)
  | .ifElse _ condition body alternative => by
    refine .bind (.refl condition.evaluate) ?_
    intro value
    exact .ite (body.execute_approximates h) (alternative.execute_approximates h)
  | .whileLoop _ _ body => .repeatWhile (body.execute_approximates h) h
/-- More rounds change nothing about a block that is not cut off. -/
theorem Block.execute_approximates (h : few ≤ many) : ∀ block : Block,
    Approximates (block.execute few) (block.execute many)
  | .mk _ statements => executeAll_approximates h statements
/-- More rounds change nothing about statements that are not cut off. -/
theorem executeAll_approximates (h : few ≤ many) : ∀ statements : List Statement,
    Approximates (executeAll few statements) (executeAll many statements)
  | [] => .refl _
  | first :: rest => .bind (first.execute_approximates h) fun _ => executeAll_approximates h rest
end

/-- Statements behind others are carried out when these have come to their end. -/
theorem executeAll_append (rounds : Nat) (body others : List Statement) :
    executeAll rounds (body ++ others) =
      executeAll rounds body >>= fun _ => executeAll rounds others := by
  induction body with
  | nil => rfl
  | cons first rest ih =>
    rw [List.cons_append, executeAll, executeAll, ih]
    exact (bind_assoc _ _ _).symm

/-! ## Sources -/

/-- A source is a program if its tokens are. -/
theorem Program.ofSource_eq_ok {source : String} {program : Program} :
    Program.ofSource source = .ok program ↔
      ∃ tokens, tokenize source = .ok tokens ∧ parse tokens = .ok program := by
  unfold Program.ofSource
  cases tokenize source with
  | error e => simp
  | ok tokens => cases hparse : parse tokens <;> simp [hparse]

namespace Machine

/-- A program completes if its statements have been carried out. -/
theorem run_eq_completed {rounds : Nat} {program : Program} {m k : Machine} :
    m.run rounds program = (.completed, k) ↔ executeAll rounds program m = .ok () k := by
  rw [run, Program.execute]
  cases executeAll rounds program m with
  | ok value machine => simp
  | error interruption machine => cases interruption <;> simp

/-- A program fails with the error of one of its statements. -/
theorem run_eq_failed {rounds : Nat} {program : Program} {m k : Machine} {e : RuntimeError} :
    m.run rounds program = (.failed (.runtime e), k) ↔
      executeAll rounds program m = .error (.failed e) k := by
  rw [run, Program.execute]
  cases executeAll rounds program m with
  | ok value machine => simp
  | error interruption machine => cases interruption <;> simp

/-- A source that is a program is run as this program. -/
theorem runSource_of_ok {source : String} {program : Program} (rounds : Nat) (m : Machine)
    (h : Program.ofSource source = .ok program) :
    m.runSource rounds source = m.run rounds program := by
  rw [runSource, h]

/-- More rounds make no difference to a program that has ended. -/
theorem run_mono {program : Program} {m : Machine} (h : few ≤ many)
    (hends : (m.run few program).1 ≠ .unfinished) : m.run many program = m.run few program := by
  rcases executeAll_approximates h program m with ⟨k, hcut⟩ | hsame
  · rw [run, Program.execute, hcut] at hends
    exact absurd rfl hends
  · rw [run, run, Program.execute, Program.execute, hsame]

/-- A run of a source text that was not cut off is the same with more rounds. -/
theorem runSource_mono {source : String} {m : Machine} (h : few ≤ many)
    (hends : (m.runSource few source).1 ≠ .unfinished) :
    m.runSource many source = m.runSource few source := by
  unfold runSource at hends ⊢
  cases hsource : Program.ofSource source with
  | error failure => rfl
  | ok program =>
    rw [hsource] at hends
    exact run_mono h hends

/-- The run of a source text on a machine comes to an end: with this outcome, leaving this machine. -/
def Ends (m : Machine) (source : String) (outcome : Outcome) (k : Machine) : Prop :=
  outcome ≠ .unfinished ∧ ∃ rounds, m.runSource rounds source = (outcome, k)

/-- Some number of rounds is enough for a source text. -/
def Terminates (m : Machine) (source : String) : Prop := ∃ outcome k, m.Ends source outcome k

/-- The run of a program on a machine comes to an end: with this outcome, leaving this machine. -/
def Finishes (m : Machine) (program : Program) (outcome : Outcome) (k : Machine) : Prop :=
  outcome ≠ .unfinished ∧ ∃ rounds, m.run rounds program = (outcome, k)

/-- Where more rounds change nothing once a run is not cut off, all runs that are not are the same. -/
theorem eq_of_not_unfinished {run : Nat → Outcome × Machine} {n n' : Nat}
    (hmono : ∀ {few many : Nat}, few ≤ many → (run few).1 ≠ .unfinished → run many = run few)
    (hn : (run n).1 ≠ .unfinished) (hn' : (run n').1 ≠ .unfinished) : run n = run n' := by
  rcases Nat.le_total n n' with hle | hle
  · exact (hmono hle hn).symm
  · exact hmono hle hn'

/-- A source text comes to its end in one way. -/
theorem Ends.unique {m k k' : Machine} {source : String} {outcome outcome' : Outcome}
    (h : m.Ends source outcome k) (h' : m.Ends source outcome' k') : outcome = outcome' ∧ k = k' := by
  obtain ⟨hends, n, hn⟩ := h
  obtain ⟨hends', n', hn'⟩ := h'
  have hsame : m.runSource n source = m.runSource n' source :=
    eq_of_not_unfinished runSource_mono (by rwa [hn]) (by rwa [hn'])
  rw [hn, hn'] at hsame
  exact Prod.mk.inj hsame

/-- A program comes to its end in one way. -/
theorem Finishes.unique {m k k' : Machine} {program : Program} {outcome outcome' : Outcome}
    (h : m.Finishes program outcome k) (h' : m.Finishes program outcome' k') :
    outcome = outcome' ∧ k = k' := by
  obtain ⟨hends, n, hn⟩ := h
  obtain ⟨hends', n', hn'⟩ := h'
  have hsame : m.run n program = m.run n' program :=
    eq_of_not_unfinished run_mono (by rwa [hn]) (by rwa [hn'])
  rw [hn, hn'] at hsame
  exact Prod.mk.inj hsame

end Machine

end Parlance
