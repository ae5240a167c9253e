import Parlance.Proofs.Run.Variables

/-!
# What expressions do

Statements act; an expression is asked for its value. It leaves the variables as they are, whether it
has a value or not. It reaches the streams only through `readNumber` and `readString`, so without a call
of one of these it is a function of the variables (`Expression.answers`). And these two look at their
arguments before they touch a stream: arguments that are not one text are refused on the machine that
evaluating the arguments has left (`Method.apply_refuses`).
-/

namespace Parlance

open Sequencing

open Run (settle)

/-! ## Arguments that are refused -/

namespace Method

/-- What a method that takes one text says of other arguments. -/
def refusal (method : Method) (values : List Value) : RuntimeFault :=
  if values.length = 1 then .expectedText else .argumentCount method.name 1 values.length

/-- A name that asks is that of `readNumber` or of `readString`. -/
theorem find?_of_asks {name : String} (h : asks name = true) :
    find? name = some readNumber ∨ find? name = some readString := by
  simp only [find?, all, List.find?_cons]
  cases hnumber : sameName readNumber.name name with
  | true => exact .inl rfl
  | false =>
    rw [asks, hnumber, Bool.false_or] at h
    rw [h]
    exact .inr rfl

/-- Arguments that are not one text are refused before anything is written or read. -/
theorem apply_refuses {method : Method} (hasks : method = readNumber ∨ method = readString)
    {values : List Value} (hvalues : ∀ prompt, values ≠ [.text prompt]) (position : Position) :
    method.apply values position = Run.fail (method.refusal values) position := by
  have harity : method.arity = 1 := by
    rcases hasks with rfl | rfl <;> rfl
  unfold apply checkArity refusal
  rw [harity]
  by_cases hlength : values.length = 1
  · rw [if_pos hlength, if_pos hlength]
    obtain ⟨value, rfl⟩ := List.length_eq_one_iff.mp hlength
    cases value with
    | text prompt => exact absurd rfl (hvalues prompt)
    | number number => rcases hasks with rfl | rfl <;> rfl
  · rw [if_neg hlength, if_neg hlength]
    rfl

end Method

/-- **Expressions change no variable, and only `readNumber` and `readString` touch the streams.**

* An expression leaves the variables as they were, whatever comes of it.
* If no call in it, at any depth, names one of the two methods in any case, it leaves the whole machine
  as it was, and the variables alone decide its value or its error.
* A call of one of the two whose arguments come to anything but one text fails, at its place, on the
  machine that its arguments have left: nothing more was written or read. -/
theorem expression_effects_confined :
    (∀ (value : Expression) (m : Machine),
      (Run.left value.evaluate m).environment = m.environment) ∧
    (∀ value : Expression, value.asks = false →
      ∃ answer : Environment → Except RuntimeError Value, ∀ m : Machine,
        value.evaluate m = settle ((answer m.environment).mapError .failed) m) ∧
    ∀ (start : Token) (name : String) (arguments : List Expression) (values : List Value)
      (m k : Machine), Method.asks name = true → evaluateAll arguments m = .ok values k →
        (∀ prompt, values ≠ [.text prompt]) →
          ∃ method, Method.find? name = some method ∧
            (Call.mk start name arguments).evaluate m =
              .error (.failed ⟨method.refusal values, start.position⟩) k := by
  refine ⟨fun value m => (value.evaluate_updates m).eq_of_nil,
    fun value h => (value.answers h).exists_function, ?_⟩
  intro start name arguments values m k hname harguments hvalues
  obtain ⟨method, hfound, hasks⟩ : ∃ method, Method.find? name = some method ∧
      (method = .readNumber ∨ method = .readString) := by
    rcases Method.find?_of_asks hname with hfound | hfound
    · exact ⟨_, hfound, .inl rfl⟩
    · exact ⟨_, hfound, .inr rfl⟩
  refine ⟨method, hfound, ?_⟩
  rw [Call.evaluate, bind_of_ok harguments, Method.invoke, hfound]
  dsimp only
  rw [Method.apply_refuses hasks hvalues]
  rfl

/-- A call that asks for nothing, under another spelling; and a call of `readNumber` with two arguments. The
second of these reads a line and writes a prompt, and then the call is refused: the other line is left. -/
theorem expression_effects_of_surplus_argument :
    let token : Token := ⟨.doWord, "do", .start⟩
    let joined : Expression := .call (.mk token "CONCAT" [.reference token "x", .text token "!"])
    let arguments : List Expression :=
      [.text token "a", .call (.mk token "readString" [.text token "?"])]
    let m : Machine := .fresh ⟨.ofBytes [98, Input.newline, 55], .empty⟩
    let k : Machine := .fresh ⟨.ofBytes [55], Output.empty.append "?"⟩
    joined.asks = false ∧
      (∃ answer : Environment → Except RuntimeError Value, ∀ m : Machine,
        joined.evaluate m = settle ((answer m.environment).mapError .failed) m) ∧
      evaluateAll arguments m = .ok [.text "a", .text "b"] k ∧
      (Call.mk token "READNUMBER" arguments).evaluate m =
        .error (.failed ⟨.argumentCount "readNumber" 1 2, .start⟩) k := by
  have harguments : evaluateAll
      [.text ⟨.doWord, "do", .start⟩ "a", .call (.mk ⟨.doWord, "do", .start⟩ "readString"
        [.text ⟨.doWord, "do", .start⟩ "?"])]
      (.fresh ⟨.ofBytes [98, Input.newline, 55], .empty⟩) =
      .ok [.text "a", .text "b"] (.fresh ⟨.ofBytes [55], Output.empty.append "?"⟩) := rfl
  have hfind : Method.find? "READNUMBER" = some .readNumber := rfl
  intro token joined arguments m k
  obtain ⟨-, hanswers, hrefuses⟩ := expression_effects_confined
  have hjoined : joined.asks = false := rfl
  obtain ⟨method, hfound, hcall⟩ :=
    hrefuses token "READNUMBER" arguments _ m k rfl harguments (by simp)
  cases hfound.symm.trans hfind
  exact ⟨hjoined, hanswers joined hjoined, harguments, hcall⟩

end Parlance
