import Parlance.Proofs.Run.Rounds

/-!
# Blocks open no scope

A block that stands as a statement does what its statements do, one after the other, where it stands. So
the braces around it can be left out, at any depth and within conditions and loops too:
`Program.flatten` does this, and the program it gives is carried out in the same way on every machine and
for every number of rounds (`executeAll_flatten`). A fault inside such a block skips what is left of it and
what stands behind it alike, since a sequence of statements ends at its first fault however it is
grouped.

The blocks of conditions and loops keep their braces. They are what is chosen or repeated.
-/

namespace Parlance

/-! ## Programs without bare blocks -/

mutual
/-- What stands in place of a statement: itself, or the statements of a block. -/
def Statement.flatten : Statement → List Statement
  | .assignNumber start name value => [.assignNumber start name value]
  | .assignText start name content => [.assignText start name content]
  | .assignCall start name source => [.assignCall start name source]
  | .say start value => [.say start value]
  | .perform target => [.perform target]
  | .group body => body.flatten.statements
  | .ifThen start condition body => [.ifThen start condition body.flatten]
  | .ifElse start condition body alternative =>
    [.ifElse start condition body.flatten alternative.flatten]
  | .whileLoop start condition body => [.whileLoop start condition body.flatten]
/-- A block without bare blocks in it. -/
def Block.flatten : Block → Block
  | .mk start statements => .mk start (flattenStatements statements)
/-- Statements without bare blocks among them. -/
def flattenStatements : List Statement → List Statement
  | [] => []
  | first :: rest => first.flatten ++ flattenStatements rest
end

/-- A program with every bare block replaced by its statements. -/
def Program.flatten (program : Program) : Program := flattenStatements program

mutual
/-- Whether a statement is no block and has no bare block in it. -/
def Statement.isFlat : Statement → Bool
  | .group _ => false
  | .ifThen _ _ body => body.isFlat
  | .ifElse _ _ body alternative => body.isFlat && alternative.isFlat
  | .whileLoop _ _ body => body.isFlat
  | _ => true
/-- Whether there is no bare block in a block. -/
def Block.isFlat : Block → Bool
  | .mk _ statements => statementsAreFlat statements
/-- Whether there is no bare block among statements. -/
def statementsAreFlat : List Statement → Bool
  | [] => true
  | first :: rest => first.isFlat && statementsAreFlat rest
end

/-- Whether a program has no bare block. -/
def Program.isFlat (program : Program) : Bool := statementsAreFlat program

/-- Lists of flat statements can be joined. -/
theorem statementsAreFlat_append (body others : List Statement) :
    statementsAreFlat (body ++ others) = (statementsAreFlat body && statementsAreFlat others) := by
  induction body with
  | nil => rfl
  | cons first rest ih =>
    rw [List.cons_append, statementsAreFlat, statementsAreFlat, ih, Bool.and_assoc]

theorem statementsAreFlat_singleton (statement : Statement) :
    statementsAreFlat [statement] = statement.isFlat :=
  Bool.and_true _

/-- The inside of a flat block is flat. -/
theorem Block.statementsAreFlat_statements (block : Block) :
    statementsAreFlat block.statements = block.isFlat := by
  cases block
  rfl

mutual
/-- What a statement is flattened to has no block of its own. -/
theorem Statement.isFlat_flatten : ∀ statement : Statement, statementsAreFlat statement.flatten = true
  | .assignNumber _ _ _ => rfl
  | .assignText _ _ _ => rfl
  | .assignCall _ _ _ => rfl
  | .say _ _ => rfl
  | .perform _ => rfl
  | .group body => by
    rw [Statement.flatten, Block.statementsAreFlat_statements]
    exact body.isFlat_flatten
  | .ifThen _ _ body => by
    rw [Statement.flatten, statementsAreFlat_singleton]
    exact body.isFlat_flatten
  | .ifElse _ _ body alternative => by
    rw [Statement.flatten, statementsAreFlat_singleton]
    exact Bool.and_eq_true_iff.mpr ⟨body.isFlat_flatten, alternative.isFlat_flatten⟩
  | .whileLoop _ _ body => by
    rw [Statement.flatten, statementsAreFlat_singleton]
    exact body.isFlat_flatten
/-- A flattened block has no block of its own directly in it. -/
theorem Block.isFlat_flatten : ∀ block : Block, block.flatten.isFlat = true
  | .mk _ statements => statementsAreFlat_flatten statements
/-- Flattening leaves no bare block. -/
theorem statementsAreFlat_flatten : ∀ statements : List Statement,
    statementsAreFlat (flattenStatements statements) = true
  | [] => rfl
  | first :: rest => by
    rw [flattenStatements, statementsAreFlat_append]
    exact Bool.and_eq_true_iff.mpr ⟨first.isFlat_flatten, statementsAreFlat_flatten rest⟩
end

/-! ## What they do -/

variable (rounds : Nat)

theorem executeAll_singleton (statement : Statement) :
    executeAll rounds [statement] = statement.execute rounds :=
  bind_pure_unit

/-- Carrying out a block is carrying out its statements. -/
theorem Block.executeAll_statements (block : Block) :
    executeAll rounds block.statements = block.execute rounds := by
  cases block
  rfl

mutual
/-- The statements that a statement is flattened to do together what it does. -/
theorem Statement.execute_flatten : ∀ statement : Statement,
    executeAll rounds statement.flatten = statement.execute rounds
  | .assignNumber _ _ _ => executeAll_singleton rounds _
  | .assignText _ _ _ => executeAll_singleton rounds _
  | .assignCall _ _ _ => executeAll_singleton rounds _
  | .say _ _ => executeAll_singleton rounds _
  | .perform _ => executeAll_singleton rounds _
  | .group body => by
    rw [Statement.flatten, Block.executeAll_statements, body.execute_flatten]
    rfl
  | .ifThen _ _ body => by
    rw [Statement.flatten, executeAll_singleton, Statement.execute, Statement.execute,
      body.execute_flatten]
  | .ifElse _ _ body alternative => by
    rw [Statement.flatten, executeAll_singleton, Statement.execute, Statement.execute,
      body.execute_flatten, alternative.execute_flatten]
  | .whileLoop _ _ body => by
    rw [Statement.flatten, executeAll_singleton, Statement.execute, Statement.execute,
      body.execute_flatten]
/-- A flattened block does what the block does. -/
theorem Block.execute_flatten : ∀ block : Block, block.flatten.execute rounds = block.execute rounds
  | .mk _ statements => executeAll_flatten statements
/-- Flattened statements do what the statements do, whatever the number of rounds. -/
theorem executeAll_flatten : ∀ statements : List Statement,
    executeAll rounds (flattenStatements statements) = executeAll rounds statements
  | [] => rfl
  | first :: rest => by
    rw [flattenStatements, executeAll_append, first.execute_flatten, executeAll_flatten rest]
    rfl
end

/-- **Blocks open no scope.** Every bare block of a program can be replaced by its statements, at any
depth: no bare block is left, and on every machine the program comes to an end exactly if it did before,
with the same outcome, an error with its place included, and leaving the same variables, output and
unread input. -/
theorem Machine.finishes_flatten_iff (program : Program) :
    program.flatten.isFlat = true ∧
      ∀ (m k : Machine) (outcome : Outcome),
        m.Finishes program outcome k ↔ m.Finishes program.flatten outcome k := by
  refine ⟨statementsAreFlat_flatten program, fun m k outcome => ?_⟩
  have hrun : ∀ rounds, m.run rounds program.flatten = m.run rounds program := by
    intro rounds
    have hexecute : program.flatten.execute rounds = program.execute rounds :=
      executeAll_flatten rounds program
    rw [run, run, hexecute]
  rw [Finishes, Finishes]
  simp only [hrun]

end Parlance
