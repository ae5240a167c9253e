import Parlance.Dialogue.Buffer

/-!
# Lines collected one after the other

`Buffer.push` decides about one line; a list of lines is pushed one by one, and each of them is
answered. `Takes` says all that a push can do, one rule for each answer, so that nothing about buffers
has to be read off the conditions of `push` again.

The depth goes up and down with the characters of a line, and what it comes to is a difference of two
counts (`foldl_nest`).

A buffer that grows from the empty one holds no text, or a text that is not all blank (`Tidy`): a blank
line is not collected before there is something else.
-/

namespace Parlance.Dialogue

open Text

/-- How many more braces characters open than close. -/
def braceDepth (cs : List Char) : Int :=
  (cs.count '\x7b' : Int) - cs.count '\x7d'

/-- One character changes the depth by what it opens. -/
theorem nest_eq (depth : Int) (c : Char) : nest depth c = depth + braceDepth [c] := by
  by_cases hleft : c = '\x7b'
  · subst hleft
    rfl
  by_cases hright : c = '\x7d'
  · subst hright
    rfl
  · have hnone : braceDepth [c] = 0 := by simp [braceDepth, hleft, hright]
    rw [hnone, Int.add_zero]
    unfold nest
    split
    · exact absurd rfl hleft
    · exact absurd rfl hright
    · rfl

/-- What two texts open adds up. -/
theorem braceDepth_append (cs ds : List Char) :
    braceDepth (cs ++ ds) = braceDepth cs + braceDepth ds := by
  simp only [braceDepth, List.count_append]
  omega

/-- The running depth comes to the braces opened less the braces closed. -/
theorem foldl_nest (cs : List Char) (depth : Int) : cs.foldl nest depth = depth + braceDepth cs := by
  induction cs generalizing depth with
  | nil => exact (Int.add_zero depth).symm
  | cons c cs ih =>
    rw [List.foldl_cons, ih, nest_eq, Int.add_assoc, ← braceDepth_append]
    rfl

namespace Buffer

variable {buffer next : Buffer} {line : String} {answer : Submission}

/-! ## One line -/

/-- The text of a buffer with one more line. -/
def textWith (buffer : Buffer) (line : String) : String := buffer.text ++ line ++ "\n"

/-- The depth of a buffer with one more line. -/
def depthWith (buffer : Buffer) (line : String) : Int := buffer.depth + braceDepth line.toList

/-- Whether a line is passed over: it is blank, and so is everything collected before it. -/
def skips (buffer : Buffer) (line : String) : Bool := buffer.isBlank && allBlank line.toList

/-- A buffer takes a line, with this answer, and becomes that buffer. -/
inductive Takes (buffer : Buffer) (line : String) : Submission → Buffer → Prop
  | skipped (hskips : buffer.skips line = true) : Takes buffer line .pending ⟨"", buffer.depth⟩
  | unbalanced (hskips : buffer.skips line = false) (hdepth : buffer.depthWith line < 0) :
      Takes buffer line .unbalanced empty
  | ready (hskips : buffer.skips line = false) (hdepth : buffer.depthWith line = 0)
      (hends : endsStatement line = true) : Takes buffer line (.ready (buffer.textWith line)) empty
  | pending (hskips : buffer.skips line = false) (hdepth : 0 ≤ buffer.depthWith line)
      (hopen : buffer.depthWith line = 0 → endsStatement line = false) :
      Takes buffer line .pending ⟨buffer.textWith line, buffer.depthWith line⟩

/-- Every push is one of these. -/
theorem takes_push (buffer : Buffer) (line : String) :
    Takes buffer line (buffer.push line).1 (buffer.push line).2 := by
  unfold push
  rw [foldl_nest]
  split
  · rename_i hskips
    exact .skipped hskips
  · rename_i hskips
    have hskips : buffer.skips line = false := Bool.eq_false_iff.mpr hskips
    dsimp only
    split
    · rename_i hdepth
      exact .unbalanced hskips hdepth
    · rename_i hdepth
      split
      · rename_i hready
        exact .ready hskips hready.1 hready.2
      · rename_i hready
        refine .pending hskips (Int.not_lt.mp hdepth) ?_
        intro hzero
        exact Bool.eq_false_iff.mpr fun hends => hready ⟨hzero, hends⟩

/-! ## Many lines -/

/-- The buffer after lines. -/
def after (buffer : Buffer) : List String → Buffer
  | [] => buffer
  | line :: rest => (buffer.push line).2.after rest

/-- The answers to lines, one for each. -/
def answers (buffer : Buffer) : List String → List Submission
  | [] => []
  | line :: rest => (buffer.push line).1 :: (buffer.push line).2.answers rest

/-- What the user is prompted with, once before each line. -/
def prompts (buffer : Buffer) : List String → List String
  | [] => []
  | line :: rest => buffer.prompt :: (buffer.push line).2.prompts rest

/-! ## Blank buffers -/

/-- A buffer that is blank holds no text at all. -/
def Tidy (buffer : Buffer) : Prop := buffer.isBlank = true → buffer.text = ""

theorem tidy_empty : empty.Tidy := fun _ => rfl

/-- A line that is not skipped leaves a text that is not blank. -/
theorem isBlank_textWith (hskips : buffer.skips line = false) (depth : Int) :
    isBlank ⟨buffer.textWith line, depth⟩ = false := by
  unfold skips isBlank allBlank at hskips
  unfold isBlank allBlank textWith
  rw [String.toList_append, String.toList_append, List.all_append, List.all_append, hskips,
    Bool.false_and]

/-- A line leaves a buffer without braces if it leaves one without text. -/
theorem Takes.tidy (h : Takes buffer line answer next) : next.Tidy := by
  intro hblank
  cases h with
  | skipped hskips => rfl
  | unbalanced hskips hdepth => rfl
  | ready hskips hdepth hends => rfl
  | pending hskips hdepth hopen =>
    rw [isBlank_textWith hskips] at hblank
    cases hblank

/-- While nothing is collected, the prompt asks for a beginning. -/
theorem prompt_of_isBlank (h : buffer.isBlank = true) : buffer.prompt = "msharp> " := if_pos h

end Buffer

end Parlance.Dialogue
