import Parlance.Proofs.Sequencing
import Parlance.Stream

/-!
# Text written in pieces

A line is written in two pieces, its text and its end. To an output it makes no difference how a text is
cut (`Output.write_append`): as many bytes are taken, the same ones, and the same write fails, also where
the room runs out inside a piece or exactly between two of them.
-/

namespace Parlance

open Sequencing

/-- The front of two byte arrays that ends within the first is a front of it. -/
theorem extract_append_of_le {first second : ByteArray} {n : Nat} (h : n ≤ first.size) :
    (first ++ second).extract 0 n = first.extract 0 n := by
  rw [ByteArray.extract_append, Nat.sub_eq_zero_of_le h, Nat.zero_sub, ByteArray.extract_same,
    ByteArray.append_empty]

/-- A front that goes beyond the first array is all of it and a front of the second. -/
theorem extract_append_of_ge {first second : ByteArray} {n : Nat} (h : first.size ≤ n) :
    (first ++ second).extract 0 n = first ++ second.extract 0 (n - first.size) := by
  have hall : first.extract 0 n = first := by
    rw [← Nat.max_eq_left h]
    exact ByteArray.extract_zero_max_size
  rw [ByteArray.extract_append, Nat.zero_sub, hall]

namespace Output

variable {output : Output} {text : String}

/-- A text that fits is written whole. -/
theorem write_of_accepts (h : output.accepts text.toUTF8.size = true) :
    output.write text = (none, { output with written := output.written ++ text.toUTF8 }) := by
  rw [write, if_pos h]

/-- Of a text that does not fit, what fits is written, and the output is closed. -/
theorem write_of_not_accepts (h : ¬ output.accepts text.toUTF8.size = true) :
    output.write text = (some .closed,
      { output with written := output.written ++
          text.toUTF8.extract 0 (output.limit.getD 0 - output.written.size) }) := by
  rw [write, if_neg h]

/-- A text is written as its two halves are, the second one only if the first one fits. -/
theorem write_append (output : Output) (first second : String) :
    output.write (first ++ second) =
      match output.write first with
      | (none, output) => output.write second
      | (some fault, output) => (some fault, output) := by
  obtain ⟨written, limit, flushFails⟩ := output
  have hbytes : (first ++ second).toUTF8 = first.toUTF8 ++ second.toUTF8 := String.toByteArray_append
  cases limit with
  | none =>
    rw [write_of_accepts rfl, write_of_accepts rfl]
    dsimp only
    rw [write_of_accepts rfl, hbytes, ByteArray.append_assoc]
  | some limit =>
    have haccepts : ∀ (bytes : ByteArray) (size : Nat),
        (Output.mk bytes (some limit) flushFails).accepts size = true ↔ bytes.size + size ≤ limit :=
      fun bytes size => decide_eq_true_iff
    by_cases hfirst : written.size + first.toUTF8.size ≤ limit
    · rw [write_of_accepts ((haccepts _ _).mpr hfirst)]
      dsimp only
      by_cases hboth : written.size + first.toUTF8.size + second.toUTF8.size ≤ limit
      · rw [write_of_accepts, write_of_accepts]
        · rw [hbytes, ByteArray.append_assoc]
        · rwa [haccepts, ByteArray.size_append]
        · rwa [haccepts, hbytes, ByteArray.size_append, ← Nat.add_assoc]
      · rw [write_of_not_accepts, write_of_not_accepts]
        · simp only [hbytes, Option.getD_some, ByteArray.size_append]
          rw [extract_append_of_ge (by omega), ByteArray.append_assoc, Nat.sub_sub]
        · rwa [haccepts, ByteArray.size_append]
        · rwa [haccepts, hbytes, ByteArray.size_append, ← Nat.add_assoc]
    · rw [write_of_not_accepts (mt (haccepts _ _).mp hfirst)]
      dsimp only
      rw [write_of_not_accepts]
      · simp only [hbytes, Option.getD_some]
        rw [extract_append_of_le (by omega)]
      · rw [haccepts, hbytes, ByteArray.size_append]
        omega

end Output

/-- A line written in two pieces is written as one text. -/
theorem Console.writeLine_eq_write (text : String) : writeLine text = write (text ++ "\n") := by
  funext streams
  rw [writeLine, bind_apply, write, write, Output.write_append]
  rcases streams.output.write text with ⟨_ | fault, output⟩ <;> rfl

end Parlance
