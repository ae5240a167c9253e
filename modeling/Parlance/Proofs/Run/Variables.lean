import Mathlib.Logic.Relation
import Parlance.Proofs.Run.Comparison
import Parlance.Proofs.Run.Parts
import Parlance.Proofs.Run.Writing

/-!
# The variables of a program

A program names its variables: nothing it does reaches a variable by another way. Two laws follow, one
for reading and one for writing.

* **Reading.** A run is decided by the streams and the variables that the program names. On two machines
  that agree on these it comes to an end on both or on neither, and leaves them in agreement
  (`Machine.finishes_alike_of_agreeOn`).
* **Writing.** What a run leaves of the variables are those there were, after some assignments to targets
  of the program (`executeAll_updates`). So every other variable keeps its value or its absence, and no
  variable is ever lost, wherever the run was interrupted (`Machine.run_changes_only_targets`).

Both are properties that sequences keep, so they are shown of single actions.
-/

namespace Parlance

/-! ## Names -/

/-- The variable that a part of a program names. -/
def Part.variable? : Part → Option String
  | reference _ name => some name
  | target name => some name
  | say _ => none
  | call _ _ => none

/-- The variable that a part of a program gives a value to. -/
def Part.target? : Part → Option String
  | target name => some name
  | reference _ _ => none
  | say _ => none
  | call _ _ => none

/-- The variables that occur in a program. -/
def Program.variables (program : Program) : List String := program.parts.filterMap Part.variable?

/-- The variables that a program assigns to, anywhere in it. -/
def Program.targets (program : Program) : List String := program.parts.filterMap Part.target?

/-! ## Reading -/

/-- Two machines with the same streams, on which these variables have the same values or none. -/
structure Machine.AgreeOn (names : List String) (m m' : Machine) : Prop where
  streams : m.streams = m'.streams
  values : ∀ name ∈ names, m.environment.lookup? name = m'.environment.lookup? name

open Machine (AgreeOn)

theorem Machine.AgreeOn.symm {names : List String} {m m' : Machine} (h : AgreeOn names m m') :
    AgreeOn names m' m :=
  ⟨h.streams.symm, fun name hname => (h.values name hname).symm⟩

/-- Machines that agree still do when both are given the same value. -/
theorem Machine.AgreeOn.assign {names : List String} {m m' : Machine} (h : AgreeOn names m m')
    (name : String) (value : Value) :
    AgreeOn names { m with environment := m.environment.assign name value }
      { m' with environment := m'.environment.assign name value } := by
  refine ⟨h.streams, ?_⟩
  intro other hother
  show (m.environment.assign name value).lookup? other = (m'.environment.assign name value).lookup? other
  rw [Environment.lookup?_assign, Environment.lookup?_assign, h.values other hother]

namespace Run

variable {α : Type} {names : List String}

/-- A run is decided by the streams and by these variables. -/
def DecidedBy (names : List String) (r : Run α) : Prop :=
  ∀ m m' : Machine, AgreeOn names m m' → Alike (AgreeOn names) (r m) (r m')

namespace DecidedBy

/-- What is decided by some variables can be put in sequence: the parts begin at machines that
agree. -/
theorem sequential : Sequential (DecidedBy names) where
  pure v := fun _ _ h => .ok v h
  bind hr hf := fun m m' h => (hr m m' h).bind hf
  unfinished := fun _ _ h => .error .unfinished h

theorem fail (fault : RuntimeFault) (position : Position) :
    DecidedBy names (Run.fail fault position : Run α) :=
  fun _ _ h => .error _ h

/-- A variable among those that agree has the same value or is missing on both sides. -/
theorem lookup {name : String} (hname : name ∈ names) (position : Position) :
    DecidedBy names (Run.lookup name position) := by
  intro m m' h
  have hsame : m.environment.get name = m'.environment.get name := by
    rw [Environment.get, Environment.get, h.values name hname]
  show Alike _ (ofExcept position (m.environment.get name) m)
    (ofExcept position (m'.environment.get name) m')
  rw [hsame]
  cases m'.environment.get name with
  | ok value => exact .ok value h
  | error fault => exact .error _ h

/-- The value that is assigned does not come from the variables. -/
theorem assign (name : String) (value : Value) : DecidedBy names (Run.assign name value) :=
  fun _ _ h => .ok () (h.assign name value)

/-- An action on the streams does not see the variables. -/
theorem console (position : Position) (action : Console α) :
    DecidedBy names (Run.console position action) := by
  intro m m' h
  have hkeeps : ∀ streams, AgreeOn names { m with streams := streams } { m' with streams := streams } :=
    fun streams => ⟨rfl, h.values⟩
  unfold Run.console
  rw [h.streams]
  cases action m'.streams with
  | ok v streams => exact .ok v (hkeeps streams)
  | error stop streams => cases stop <;> exact .error _ (hkeeps streams)

/-- Methods are given values and streams, so the variables play no part in them. -/
theorem callable (position : Position) : Callable (DecidedBy names) position where
  fail fault := fail fault position
  prompt text := console position _
  readLine := console position _
  writeLine text := console position _
  askUntilRead prompt hasks := by
    intro m m' h
    rw [Method.askUntilRead_apply, Method.askUntilRead_apply, h.streams]
    exact hasks _ m m' h

end DecidedBy

end Run

open Run (DecidedBy)

/-- A program is decided by the streams and the variables that occur in it. -/
theorem executeAll_decidedBy (rounds : Nat) (program : Program) :
    DecidedBy program.variables (executeAll rounds program) := by
  apply executeAll_has DecidedBy.sequential
  intro part hpart
  cases part with
  | reference start name =>
    have hname : name ∈ program.variables := List.mem_filterMap.mpr ⟨_, hpart, rfl⟩
    exact .lookup hname start.position
  | target name => exact .assign name
  | say start => exact fun text => .console start.position _
  | call start name => exact Method.invoke_has DecidedBy.sequential (DecidedBy.callable start.position) name

namespace Machine

variable {program : Program} {m m' k : Machine} {outcome : Outcome}

/-- A program ends in the same way on machines that agree on its variables, and they still agree
then. -/
theorem Finishes.of_agreeOn (h : m.Finishes program outcome k)
    (hagree : AgreeOn program.variables m m') :
    ∃ k', m'.Finishes program outcome k' ∧ AgreeOn program.variables k k' := by
  obtain ⟨hends, rounds, hrun⟩ := h
  obtain ⟨k', hrun', hk⟩ :=
    exists_run_of_alike (executeAll_decidedBy rounds program m m' hagree) hrun
  exact ⟨k', ⟨hends, rounds, hrun'⟩, hk⟩

/-- **Variables that do not occur in a program have no influence on it.** Let two machines have the same
streams and agree on the variables that occur in a program, with or without a value. The program comes to
an end on one exactly if it does on the other. Then the outcome is the same, an error with its place
included, and the machines that are left have the same streams and agree on these variables again. -/
theorem finishes_alike_of_agreeOn (hagree : AgreeOn program.variables m m') :
    ((∃ outcome k, m.Finishes program outcome k) ↔ ∃ outcome k, m'.Finishes program outcome k) ∧
      ∀ outcome outcome' k k', m.Finishes program outcome k → m'.Finishes program outcome' k' →
        outcome = outcome' ∧ AgreeOn program.variables k k' := by
  refine ⟨⟨?_, ?_⟩, ?_⟩
  · rintro ⟨outcome, k, h⟩
    obtain ⟨k', h', -⟩ := h.of_agreeOn hagree
    exact ⟨outcome, k', h'⟩
  · rintro ⟨outcome, k', h'⟩
    obtain ⟨k, h, -⟩ := h'.of_agreeOn hagree.symm
    exact ⟨outcome, k, h⟩
  · intro outcome outcome' k k' h h'
    obtain ⟨other, hother, hk⟩ := h.of_agreeOn hagree
    obtain ⟨rfl, rfl⟩ := hother.unique h'
    exact ⟨rfl, hk⟩

/-- A loop that `x` ends after a round is carried out on another machine, where `z` has a value too and
the variables stand in another order. -/
theorem finishes_alike_beside_unused :
    let token : Token := ⟨.identifier, "", .start⟩
    let program : Program := [.whileLoop token (.reference token "x") (.mk token
      [.say token (.reference token "y"), .assignText token "x" ""])]
    let streams : Streams := ⟨.ofBytes [], .empty⟩
    let m : Machine := ⟨⟨[("x", .text "go"), ("y", .text "a")]⟩, streams⟩
    let m' : Machine := ⟨⟨[("z", .text "b"), ("y", .text "a"), ("x", .text "go")]⟩, streams⟩
    let k : Machine := ⟨⟨[("x", .text ""), ("y", .text "a")]⟩, streams.append "a\n"⟩
    AgreeOn program.variables m m' ∧ m.Finishes program .completed k ∧
      ∃ k', m'.Finishes program .completed k' ∧ k'.streams = streams.append "a\n" ∧
        k'.environment.lookup? "x" = some (.text "") := by
  intro token program streams m m' k
  have hagree : AgreeOn program.variables m m' := by
    refine ⟨rfl, ?_⟩
    show ∀ name ∈ ["x", "y", "x"], m.environment.lookup? name = m'.environment.lookup? name
    decide
  have hfinishes : m.Finishes program .completed k := ⟨by decide, 2, rfl⟩
  obtain ⟨hends, hsame⟩ := finishes_alike_of_agreeOn hagree
  obtain ⟨outcome, k', hfinishes'⟩ := hends.mp ⟨_, _, hfinishes⟩
  obtain ⟨rfl, hk⟩ := hsame _ _ _ _ hfinishes hfinishes'
  exact ⟨hagree, hfinishes, k', hfinishes', hk.streams.symm, (hk.values "x" (by decide)).symm⟩

end Machine

/-! ## Writing -/

/-- An environment arises from another one by assignments to these names. -/
def Environment.UpdatesTo (names : List String) : Environment → Environment → Prop :=
  Relation.ReflTransGen fun e e' => ∃ name ∈ names, ∃ value, e' = e.assign name value

namespace Environment.UpdatesTo

variable {names : List String} {e e' : Environment}

/-- A variable that is not assigned to keeps its value. -/
theorem lookup?_of_not_mem (h : UpdatesTo names e e') {name : String} (hname : name ∉ names) :
    e'.lookup? name = e.lookup? name := by
  induction h with
  | refl => rfl
  | tail _ hstep ih =>
    obtain ⟨target, htarget, value, rfl⟩ := hstep
    have hother : name ≠ target := fun heq => hname (heq ▸ htarget)
    rw [lookup?_assign, if_neg hother, ih]

/-- No assignment takes a value away. -/
theorem isSome_lookup? (h : UpdatesTo names e e') {name : String}
    (hbound : (e.lookup? name).isSome) : (e'.lookup? name).isSome := by
  induction h with
  | refl => exact hbound
  | tail _ hstep ih =>
    obtain ⟨target, -, value, rfl⟩ := hstep
    rw [lookup?_assign]
    split
    · rfl
    · exact ih

/-- Where nothing may be assigned to, nothing changes. -/
theorem eq_of_nil (h : UpdatesTo [] e e') : e' = e := by
  induction h with
  | refl => rfl
  | tail _ hstep _ =>
    obtain ⟨_, htarget, -⟩ := hstep
    cases htarget

end Environment.UpdatesTo

namespace Run

variable {α : Type} {names : List String}

/-- A run does nothing to the variables but assign to these, however it ends. -/
def Updates (names : List String) (r : Run α) : Prop :=
  ∀ m : Machine, m.environment.UpdatesTo names (left r m).environment

namespace Updates

/-- A run that leaves the variables alone updates none. -/
theorem of_environment_left {r : Run α}
    (h : ∀ m : Machine, (left r m).environment = m.environment) : Updates names r := by
  intro m
  rw [h m]
  exact .refl

/-- In a sequence the assignments of the second part come behind those of the first. -/
theorem sequential : Sequential (Updates names) where
  pure v := fun _ => .refl
  bind {_ _ r f} hr hf := by
    intro m
    cases hm : r m with
    | ok v k =>
      rw [left_bind_of_ok hm]
      have hfirst := hr m
      rw [left_of_ok hm] at hfirst
      exact hfirst.trans (hf v k)
    | error e k =>
      rw [left_bind_of_error hm, ← left_of_error hm]
      exact hr m
  unfinished := fun _ => .refl

/-- An assignment updates its own variable. -/
theorem assign {name : String} (hname : name ∈ names) (value : Value) :
    Updates names (Run.assign name value) :=
  fun _ => .single ⟨name, hname, value, rfl⟩

/-- A method updates no variable. -/
theorem callable (position : Position) : Callable (Updates names) position where
  fail fault := of_environment_left fun _ => rfl
  prompt text := of_environment_left (environment_left_console position _)
  readLine := of_environment_left (environment_left_console position _)
  writeLine text := of_environment_left (environment_left_console position _)
  askUntilRead prompt hasks := by
    intro m
    rw [left, Method.askUntilRead_apply]
    exact hasks (m.streams.input.unread.length + 1) m

/-- What a part of a program does to the variables. -/
theorem of_part {part : Part} (h : ∀ name, part.target? = some name → name ∈ names) :
    part.Has (Updates names) := by
  cases part with
  | reference start name =>
    apply of_environment_left
    intro m
    rw [left_lookup]
  | target name => exact assign (h name rfl)
  | say start =>
    exact fun text => of_environment_left (environment_left_console start.position _)
  | call start name => exact Method.invoke_has sequential (callable start.position) name

end Updates

end Run

open Run (Updates)

/-- A program does nothing to the variables but assign to its targets. -/
theorem executeAll_updates (rounds : Nat) (program : Program) :
    Updates program.targets (executeAll rounds program) := by
  apply executeAll_has Updates.sequential
  intro part hpart
  exact Updates.of_part fun name hname => List.mem_filterMap.mpr ⟨part, hpart, hname⟩

mutual
/-- No part of an expression is assigned to. -/
theorem Expression.target?_of_mem : ∀ (value : Expression), ∀ part ∈ value.parts, part.target? = none
  | .number _ _ => by simp [Expression.parts]
  | .text _ _ => by simp [Expression.parts]
  | .reference _ _ => by simp [Expression.parts, Part.target?]
  | .call target => target.target?_of_mem
theorem Call.target?_of_mem : ∀ (target : Call), ∀ part ∈ target.parts, part.target? = none
  | .mk start name arguments => by
    rw [Call.parts, List.forall_mem_append]
    exact ⟨target?_of_mem_argumentParts arguments, by simp [Part.target?]⟩
/-- No part of an argument is assigned to. -/
theorem target?_of_mem_argumentParts : ∀ (arguments : List Expression),
    ∀ part ∈ argumentParts arguments, part.target? = none
  | [] => by simp [argumentParts]
  | first :: rest => by
    rw [argumentParts, List.forall_mem_append]
    exact ⟨first.target?_of_mem, target?_of_mem_argumentParts rest⟩
end

/-- An expression gives no variable a value. -/
theorem Expression.evaluate_updates (value : Expression) : Updates [] value.evaluate := by
  apply value.evaluate_has Updates.sequential
  intro part hpart
  apply Updates.of_part
  intro name hname
  rw [value.target?_of_mem part hpart] at hname
  cases hname

/-- A call updates no variable, however deep its arguments go. -/
theorem Call.evaluate_updates (target : Call) : Updates [] target.evaluate :=
  (Expression.call target).evaluate_updates

/-- **A program changes the variables it assigns to, and no others.** Whatever a run of a program came
to, and also where it was cut off: a variable that is no target of the program has the value it had, or
none if it had none, and a variable that had a value has one. A statement that sets a variable to the
result of a call and is interrupted, by itself, leaves all variables as they were. -/
theorem Machine.run_changes_only_targets {program : Program} {rounds : Nat} {m k : Machine}
    {outcome : Outcome} (hrun : m.run rounds program = (outcome, k)) :
    (∀ name, name ∉ program.targets → k.environment.lookup? name = m.environment.lookup? name) ∧
      (∀ name, (m.environment.lookup? name).isSome → (k.environment.lookup? name).isSome) ∧
      ∀ (start : Token) (name : String) (source : Call) (e : Interruption) (k' : Machine),
        (Statement.assignCall start name source).execute rounds m = .error e k' →
          k'.environment = m.environment := by
  have hupdates := executeAll_updates rounds program m
  rw [left_of_run hrun] at hupdates
  refine ⟨fun name hname => hupdates.lookup?_of_not_mem hname,
    fun name hbound => hupdates.isSome_lookup? hbound, ?_⟩
  intro start name source e k' hfails
  -- The assignment is the last step and cannot fail, so it was the call that did.
  rcases Sequencing.bind_eq_error.mp hfails with hcall | ⟨value, middle, -, hassign⟩
  · have hkeeps := source.evaluate_updates m
    rw [Run.left_of_error hcall] at hkeeps
    exact hkeeps.eq_of_nil
  · cases hassign

/-- A loop fails in the middle of its first round: it has set `x` and not `y`, and `z` is as it was. -/
theorem Machine.run_changes_only_target_x :
    let token : Token := ⟨.identifier, "", .start⟩
    let failing : Call := .mk token "no" []
    let program : Program := [.whileLoop token (.text token "go") (.mk token
      [.assignText token "x" "a", .assignCall token "y" failing])]
    let m : Machine := ⟨⟨[("y", .text "b"), ("z", .text "c")]⟩, ⟨.ofBytes [], .empty⟩⟩
    let k : Machine := ⟨m.environment.assign "x" (.text "a"), m.streams⟩
    let e : RuntimeError := ⟨.unknownMethod "no", .start⟩
    m.run 1 program = (.failed (.runtime e), k) ∧ program.targets = ["x", "y"] ∧
      k.environment.lookup? "z" = m.environment.lookup? "z" ∧
      (k.environment.lookup? "y").isSome ∧
      ∀ k', (Statement.assignCall token "y" failing).execute 1 m = .error (.failed e) k' →
        k'.environment = m.environment := by
  intro token failing program m k e
  have hrun : m.run 1 program = (.failed (.runtime e), k) := rfl
  obtain ⟨hother, hbound, hfailing⟩ := run_changes_only_targets hrun
  refine ⟨hrun, rfl, hother "z" (by decide), hbound "y" rfl, ?_⟩
  exact hfailing token "y" failing (.failed e)

end Parlance
