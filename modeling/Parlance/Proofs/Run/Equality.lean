import Parlance.Interpreter
import Parlance.Proofs.Number.ReadBack
import Parlance.Proofs.Sequencing

/-!
# What is equal to what

Two numbers are equal if their difference counts as nothing. The difference is rounded, but its sign does
not matter for that, so equality is symmetric; and a finite number differs from itself by zero. An infinity
has no difference to itself, though, and an infinite one to everything else. So equality is reflexive on the
texts and the finite numbers, and on nothing beyond: an infinity is not equal to any value, not even to
itself (`equals_reflexive_on_finite`).

Transitivity is not claimed: a chain of negligible differences can add up.
-/

namespace Parlance

open Sequencing

namespace Number

/-- Whether a rounded number counts as nothing does not depend on its sign. -/
theorem isNegligible_round (s t : Bool) (numerator denominator : Nat) :
    (round s numerator denominator).isNegligible = (round t numerator denominator).isNegligible := by
  unfold round
  split <;> rfl

/-- Two differences of the same numbers are the same up to their sign. -/
theorem isNegligible_sub_comm (a b : Number) :
    (a.sub b).isNegligible = (b.sub a).isNegligible := by
  cases a with
  | nan => cases b <;> rfl
  | infinite s =>
    cases b with
    | nan => rfl
    | infinite t => cases s <;> cases t <;> rfl
    | finite t b => rfl
  | finite s a =>
    cases b with
    | nan => rfl
    | infinite t => rfl
    | finite t b =>
      have hopposite : signedUnits t b + signedUnits (!s) a = -(signedUnits s a + signedUnits (!t) b) := by
        rw [signedUnits_neg, signedUnits_neg]
        omega
      show (add (finite s a) (finite (!t) b)).isNegligible = (add (finite t b) (finite (!s) a)).isNegligible
      unfold add
      dsimp only
      rw [hopposite]
      generalize signedUnits s a + signedUnits (!t) b = total
      by_cases hzero : total = 0
      · rw [if_pos hzero, if_pos (by omega)]
        rfl
      · rw [if_neg hzero, if_neg (by omega), Int.natAbs_neg]
        exact isNegligible_round _ _ _ _

/-- The difference to an infinity, if there is one, is infinite. -/
theorem isNegligible_infinite_sub (s : Bool) (b : Number) :
    ((infinite s).sub b).isNegligible = false := by
  cases b with
  | nan => rfl
  | infinite t => cases s <;> cases t <;> rfl
  | finite t b => rfl

end Number

namespace Value

/-- Whether a value is a text or a finite number. -/
def isFinite : Value → Bool
  | number (.finite _ _) => true
  | number _ => false
  | text _ => true

/-- Values are compared in either order alike. -/
theorem equals_comm (v w : Value) : v.equals w = w.equals v := by
  cases v with
  | number a =>
    cases w with
    | number b => exact Number.isNegligible_sub_comm a b
    | text s => rfl
  | text s =>
    cases w with
    | number b => rfl
    | text t => exact BEq.comm

/-- What is neither a text nor a finite number is equal to nothing. -/
theorem equals_of_not_isFinite {v : Value} (h : v.isFinite = false) (w : Value) :
    v.equals w = false := by
  cases v with
  | text s => cases h
  | number a =>
    cases w with
    | text t => rfl
    | number b =>
      cases a with
      | nan => rfl
      | infinite s => exact Number.isNegligible_infinite_sub s b
      | finite s a => cases h

/-- A value equals itself unless it is a number that is not finite. -/
theorem equals_self (v : Value) : v.equals v = v.isFinite := by
  cases v with
  | text s => exact beq_self_eq_true s
  | number a =>
    cases a with
    | nan => rfl
    | infinite s => exact equals_of_not_isFinite rfl _
    | finite s a =>
      refine Number.isNegligible_sub ?_
      rw [Int.sub_self]
      exact Nat.zero_le _

end Value

/-! ## A variable compared with itself -/

section Itself

variable {m : Machine} {x : String} {v : Value}

theorem Expression.evaluate_reference (h : m.environment.lookup? x = some v) (start : Token) :
    (Expression.reference start x).evaluate m = .ok v m := by
  have hvalue : m.environment.get x = .ok v := by
    rw [Environment.get, h]
  show Run.ofExcept start.position (m.environment.get x) m = _
  rw [hvalue]
  rfl

/-- A method called on a variable twice is applied to its value twice. -/
theorem Call.evaluate_itself (h : m.environment.lookup? x = some v) {name : String} {method : Method}
    (hname : Method.find? name = some method) (start first second : Token) :
    (Call.mk start name [.reference first x, .reference second x]).evaluate m =
      method.apply [v, v] start.position m := by
  have hrest : evaluateAll [.reference second x] m = .ok [v] m := by
    rw [evaluateAll, bind_of_ok (Expression.evaluate_reference h second)]
    rfl
  have hvalues : evaluateAll [.reference first x, .reference second x] m = .ok [v, v] m := by
    rw [evaluateAll, bind_of_ok (Expression.evaluate_reference h first), bind_of_ok hrest]
    rfl
  rw [Call.evaluate, bind_of_ok hvalues, Method.invoke, hname]

end Itself

/-- **Equality is symmetric, and reflexive on the texts and the finite numbers.** An infinity is equal to
nothing, and neither is what is not a number. So a variable compared with itself by `eq`, under any spelling
of the name, gives one if it holds a text or a finite number and zero otherwise; `neq` gives the opposite.
Either leaves the machine as it was. -/
theorem equals_reflexive_on_finite (v w : Value) :
    v.equals w = w.equals v ∧
    v.equals v = v.isFinite ∧
    (v.isFinite = false → v.equals w = false) ∧
    ∀ (m : Machine) (x : String), m.environment.lookup? x = some v →
      ∀ (name : String) (start first second : Token),
        let itself : Call := .mk start name [.reference first x, .reference second x]
        (Method.find? name = some .eq → itself.evaluate m = .ok (.ofBool v.isFinite) m) ∧
        (Method.find? name = some .neq → itself.evaluate m = .ok (.ofBool !v.isFinite) m) := by
  refine ⟨Value.equals_comm v w, Value.equals_self v, fun h => Value.equals_of_not_isFinite h w, ?_⟩
  intro m x hbound name start first second
  constructor
  · intro hname
    rw [Call.evaluate_itself hbound hname, ← Value.equals_self]
    rfl
  · intro hname
    rw [Call.evaluate_itself hbound hname, ← Value.equals_self]
    rfl

/-- An infinity in a variable differs from itself, and the negative zero beside it does not. -/
theorem equals_reflexive_but_for_infinity :
    let token : Token := ⟨.doWord, "do", .start⟩
    let infinity : Value := .number (.infinite false)
    let zero : Value := .number (.zero true)
    let m : Machine := ⟨⟨[("x", infinity), ("y", zero)]⟩, ⟨.ofBytes [], .empty⟩⟩
    let itself (name x : String) : Call := .mk token name [.reference token x, .reference token x]
    infinity.isFinite = false ∧ infinity.equals zero = false ∧ infinity.equals infinity = false ∧
      m.environment.lookup? "x" = some infinity ∧
      (itself "EQ" "x").evaluate m = .ok (.ofBool false) m ∧
      (itself "neq" "x").evaluate m = .ok (.ofBool true) m ∧
      m.environment.lookup? "y" = some zero ∧
      (itself "eq" "y").evaluate m = .ok (.ofBool true) m := by
  intro token infinity zero m itself
  obtain ⟨-, hself, hnothing, hinfinity⟩ := equals_reflexive_on_finite infinity zero
  obtain ⟨-, -, -, hzero⟩ := equals_reflexive_on_finite zero infinity
  have hx : m.environment.lookup? "x" = some infinity := rfl
  have hy : m.environment.lookup? "y" = some zero := rfl
  have heq : Method.find? "eq" = some .eq := rfl
  have hEq : Method.find? "EQ" = some .eq := rfl
  have hneq : Method.find? "neq" = some .neq := rfl
  exact ⟨rfl, hnothing rfl, hself, hx, (hinfinity m "x" hx "EQ" token token token).1 hEq,
    (hinfinity m "x" hx "neq" token token token).2 hneq, hy,
    (hzero m "y" hy "eq" token token token).1 heq⟩

end Parlance
