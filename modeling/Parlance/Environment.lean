import Parlance.Value

/-!
# Environments

An environment gives values to names. There is one for a whole program: no construct of the
language opens a scope of its own.
-/

namespace Parlance

/-- The variables of a program. -/
structure Environment where
  /-- The names that have a value, each once, with it. -/
  bindings : List (String × Value)
deriving DecidableEq

namespace Environment

/-- The environment without variables. -/
def empty : Environment := ⟨[]⟩

/-- The value of a name. -/
def lookup? (environment : Environment) (name : String) : Option Value :=
  environment.bindings.lookup name

/-- The value of a name, which has to have one. -/
def get (environment : Environment) (name : String) : Except RuntimeFault Value :=
  match environment.lookup? name with
  | some value => .ok value
  | none => .error (.unknownVariable name)

/-- Gives a value to a name, in place of the one it had. -/
def assign (environment : Environment) (name : String) (value : Value) : Environment :=
  ⟨(name, value) :: environment.bindings.filter fun binding => binding.1 != name⟩

@[simp] theorem lookup?_empty (name : String) : empty.lookup? name = none := rfl

private theorem lookup_filter_ne {name other : String} (different : other ≠ name)
    (bindings : List (String × Value)) :
    (bindings.filter fun binding => binding.1 != name).lookup other = bindings.lookup other := by
  induction bindings with
  | nil => rfl
  | cons binding rest ih =>
    obtain ⟨key, value⟩ := binding
    by_cases same : key = name
    · have missed : (other == key) = false := by simpa [same] using different
      simp [List.lookup_cons, same ▸ missed, same, ih]
    · simp [List.lookup_cons, same, ih]

/-- An assignment gives its value to its name and leaves every other name alone. -/
theorem lookup?_assign (environment : Environment) (name other : String) (value : Value) :
    (environment.assign name value).lookup? other =
      if other = name then some value else environment.lookup? other := by
  unfold assign lookup?
  by_cases same : other = name
  · simp [same]
  · have missed : (other == name) = false := by simpa using same
    simp [List.lookup_cons, same, missed, lookup_filter_ne same]

end Environment

end Parlance
