/-!
# Actions, one after the other

Readers, consoles, runs and dialogues are all actions on a state that may fail. A sequence of two is
opened here, once for all of them: it succeeds if both do, and it fails where the first of them does.
-/

namespace Parlance.Sequencing

variable {ε σ α β : Type}

/-- A sequence goes on with the value and the state of its first part, or ends with its error. -/
theorem bind_apply (r : EStateM ε σ α) (f : α → EStateM ε σ β) (s : σ) :
    (r >>= f) s = match r s with
      | .ok v t => f v t
      | .error e t => .error e t := by
  show EStateM.bind r f s = _
  unfold EStateM.bind
  cases r s <;> rfl

/-- Behind a first part that succeeds, the second decides. -/
theorem bind_of_ok {r : EStateM ε σ α} {f : α → EStateM ε σ β} {s t : σ} {v : α}
    (h : r s = .ok v t) : (r >>= f) s = f v t := by
  rw [bind_apply, h]

/-- A sequence succeeds if both parts do. -/
theorem bind_eq_ok {r : EStateM ε σ α} {f : α → EStateM ε σ β} {s t : σ} {w : β} :
    (r >>= f) s = .ok w t ↔ ∃ v s₁, r s = .ok v s₁ ∧ f v s₁ = .ok w t := by
  rw [bind_apply]
  cases r s with
  | ok v s₁ =>
    refine ⟨fun h => ⟨v, s₁, rfl, h⟩, ?_⟩
    intro h
    obtain ⟨_, _, h, hf⟩ := h
    cases h
    exact hf
  | error e k => simp

/-- A sequence fails where one of its parts does. -/
theorem bind_eq_error {r : EStateM ε σ α} {f : α → EStateM ε σ β} {s t : σ} {e : ε} :
    (r >>= f) s = .error e t ↔
      r s = .error e t ∨ ∃ v s₁, r s = .ok v s₁ ∧ f v s₁ = .error e t := by
  rw [bind_apply]
  cases r s with
  | ok v s₁ =>
    refine ⟨fun h => .inr ⟨v, s₁, rfl, h⟩, ?_⟩
    rintro (h | ⟨_, _, h, hf⟩)
    · cases h
    · cases h
      exact hf
  | error e' k' => simp

end Parlance.Sequencing
