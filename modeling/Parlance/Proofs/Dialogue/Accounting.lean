import Mathlib.Data.List.DropRight
import Mathlib.Data.List.Induction
import Parlance.Proofs.Dialogue.BraceCount
import Parlance.Proofs.Stream.Lines

/-!
# Every line is accounted for

A buffer is emptied in three places, by a submission, by too many closing braces, and by a blank line
before anything is collected. Only the first two set the depth back. So what the depth means rests on an
invariant of all pushes (`Buffer.Sound`): a buffer holds nothing or something that is not blank, its depth
is the count of the braces it holds, and this count is never negative.

The pushes that lines lead to are listed with the buffer that each of them found (`Buffer.pushes`), and
the books are kept over this list: the texts that were released, by submission or by throwing them away,
and the lines that were not passed over. They balance after every push (`join_released_append_text`).
What has been collected since the last release is read off the same list (`text_after`), so the answer to
a line is decided by lines and not by the state of the buffer (`pushes_accounted_for`).
-/

namespace Parlance

/-- Two lists of lines are written one behind the other. -/
theorem unlines_append (first second : List String) :
    unlines (first ++ second) = unlines first ++ unlines second := by
  induction first with
  | nil => exact String.empty_append.symm
  | cons line rest ih => rw [List.cons_append, unlines, unlines, ih, ← String.append_assoc]

namespace Dialogue

/-! ## What holds after any lines -/

namespace Buffer

variable {buffer next : Buffer} {line : String} {answer : Submission}

/-- A buffer that holds nothing or something that is not blank, and whose depth is the count of its
braces and not negative. -/
structure Sound (buffer : Buffer) : Prop where
  tidy : buffer.Tidy
  counted : buffer.Counted
  level : 0 ≤ buffer.depth

theorem sound_empty : empty.Sound := ⟨tidy_empty, counted_empty, Int.le_refl 0⟩

/-- One line keeps a buffer sound. -/
theorem Takes.sound (h : Takes buffer line answer next) (hsound : buffer.Sound) : next.Sound where
  tidy := h.tidy
  counted := h.counted hsound.counted
  level := by
    cases h with
    | skipped hskips => exact hsound.level
    | unbalanced hskips hdepth => exact Int.le_refl 0
    | ready hskips hdepth hends => exact Int.le_refl 0
    | pending hskips hdepth hopen => exact hdepth

/-- Only a pending answer leaves a text in the buffer. -/
theorem Takes.text_of_ne_pending (h : Takes buffer line answer next) (hanswer : answer ≠ .pending) :
    next.text = "" := by
  cases h with
  | skipped hskips => rfl
  | unbalanced hskips hdepth => rfl
  | ready hskips hdepth hends => rfl
  | pending hskips hdepth hopen => exact absurd rfl hanswer

/-- A buffer stays sound, whatever is pushed. -/
theorem Sound.after (h : buffer.Sound) (lines : List String) : (buffer.after lines).Sound := by
  induction lines generalizing buffer with
  | nil => exact h
  | cons line rest ih => exact ih ((takes_push buffer line).sound h)

/-- A sound buffer holds nothing, or a character that is not blank. -/
theorem Sound.text_cases (h : buffer.Sound) :
    buffer.text = "" ∨ ∃ c ∈ buffer.text.toList, Text.isBlank c = false := by
  cases hblank : buffer.isBlank with
  | true => exact .inl (h.tidy hblank)
  | false =>
    obtain ⟨c, hc, hclass⟩ := List.all_eq_false.mp hblank
    exact .inr ⟨c, hc, Bool.eq_false_iff.mpr hclass⟩

end Buffer

/-! ## The list of pushes -/

/-- A line pushed into a buffer. -/
structure Push where
  /-- The buffer that the line found. -/
  buffer : Buffer
  line : String

namespace Push

/-- The answer to the line. -/
def answer (push : Push) : Submission := (push.buffer.push push.line).1

/-- Whether the line was passed over. -/
def isSkipped (push : Push) : Bool := push.buffer.skips push.line

/-- Whether everything stayed in the buffer. -/
def isPending (push : Push) : Bool := push.answer == .pending

/-- The text that the line took out of the buffer, if it did: submitted, or thrown away. -/
def released? (push : Push) : Option String :=
  match push.answer with
  | .pending => none
  | .unbalanced => some (push.buffer.textWith push.line)
  | .ready source => some source

end Push

/-- The pushes that lines lead to, in order. -/
def Buffer.pushes (buffer : Buffer) : List String → List Push
  | [] => []
  | line :: rest => ⟨buffer, line⟩ :: (buffer.push line).2.pushes rest

/-- The lines of pushes, without those passed over. -/
def keptLines (pushes : List Push) : List String :=
  (pushes.filter (!·.isSkipped)).map Push.line

/-- The pushes since the last one that released a text. -/
def sinceRelease (pushes : List Push) : List Push := pushes.rtakeWhile Push.isPending

/-- The kept lines of pushes are those of their parts. -/
theorem keptLines_append (first second : List Push) :
    keptLines (first ++ second) = keptLines first ++ keptLines second := by
  rw [keptLines, List.filter_append, List.map_append]
  rfl

/-- The text of the lines kept, with one more push. -/
theorem unlines_keptLines_concat (pushes : List Push) (push : Push) :
    unlines (keptLines (pushes ++ [push])) =
      unlines (keptLines pushes) ++ if push.isSkipped then "" else push.line ++ "\n" := by
  rw [keptLines_append, unlines_append]
  cases hskipped : push.isSkipped <;> simp [keptLines, hskipped, unlines]

namespace Buffer

/-- The last push comes last. -/
theorem after_concat (buffer : Buffer) (lines : List String) (line : String) :
    buffer.after (lines ++ [line]) = ((buffer.after lines).push line).2 := by
  induction lines generalizing buffer with
  | nil => rfl
  | cons first rest ih => exact ih (buffer.push first).2

theorem pushes_concat (buffer : Buffer) (lines : List String) (line : String) :
    buffer.pushes (lines ++ [line]) = buffer.pushes lines ++ [⟨buffer.after lines, line⟩] := by
  induction lines generalizing buffer with
  | nil => rfl
  | cons first rest ih => exact congrArg (⟨buffer, first⟩ :: ·) (ih (buffer.push first).2)

/-! ## The books balance -/

variable {buffer : Buffer} {line : String}

/-- What was collected, with the line unless it is passed over, is released or collected still. -/
theorem Tidy.balance (h : buffer.Tidy) (line : String) :
    buffer.text ++ (if buffer.skips line then "" else line ++ "\n") =
      (Push.released? ⟨buffer, line⟩).getD "" ++ (buffer.push line).2.text := by
  have htakes := buffer.takes_push line
  unfold Push.released? Push.answer
  dsimp only
  generalize buffer.push line = result at htakes ⊢
  obtain ⟨answer, next⟩ := result
  cases htakes with
  | skipped hskips =>
    rw [if_pos hskips, h (Bool.and_eq_true_iff.mp hskips).1]
    rfl
  | unbalanced hskips hdepth =>
    rw [hskips, if_neg Bool.false_ne_true, ← String.append_assoc]
    exact String.append_empty.symm
  | ready hskips hdepth hends =>
    rw [hskips, if_neg Bool.false_ne_true, ← String.append_assoc]
    exact String.append_empty.symm
  | pending hskips hdepth hopen =>
    rw [hskips, if_neg Bool.false_ne_true, ← String.append_assoc]
    exact String.empty_append.symm

/-- **The books balance.** The texts released and the text still collected are the lines pushed, without
those passed over. -/
theorem join_released_append_text (lines : List String) :
    String.join ((empty.pushes lines).filterMap Push.released?) ++ (empty.after lines).text =
      unlines (keptLines (empty.pushes lines)) := by
  induction lines using List.reverseRecOn with
  | nil => rfl
  | append_singleton lines line ih =>
    have htidy : (empty.after lines).Tidy := (sound_empty.after lines).tidy
    have hlast : String.join ([⟨empty.after lines, line⟩].filterMap Push.released?) =
        (Push.released? ⟨empty.after lines, line⟩).getD "" := by
      cases hreleased : Push.released? ⟨empty.after lines, line⟩ <;> simp [hreleased]
    rw [pushes_concat, after_concat, unlines_keptLines_concat, List.filterMap_append, String.join_append,
      hlast, String.append_assoc, ← htidy.balance line, ← String.append_assoc, ih]
    rfl

/-- The text of a buffer is that of the lines kept since the last release. -/
theorem text_after (lines : List String) :
    (empty.after lines).text = unlines (keptLines (sinceRelease (empty.pushes lines))) := by
  induction lines using List.reverseRecOn with
  | nil => rfl
  | append_singleton lines line ih =>
    have hbalance := (sound_empty.after lines).tidy.balance line
    rw [pushes_concat, after_concat, sinceRelease]
    cases hpending : Push.isPending ⟨empty.after lines, line⟩ with
    | true =>
      have hanswer : Push.answer ⟨empty.after lines, line⟩ = .pending := eq_of_beq hpending
      rw [List.rtakeWhile_concat_pos _ _ _ hpending, unlines_keptLines_concat, ← sinceRelease, ← ih]
      rw [Push.released?, hanswer, Option.getD_none, String.empty_append] at hbalance
      exact hbalance.symm
    | false =>
      rw [List.rtakeWhile_concat_neg _ _ _ (Bool.eq_false_iff.mp hpending)]
      have hanswer : ((empty.after lines).push line).1 ≠ .pending := beq_eq_false_iff_ne.mp hpending
      exact ((empty.after lines).takes_push line).text_of_ne_pending hanswer

/-! ## What decides the answer -/

/-- A blank line ends no statement. -/
theorem endsStatement_of_allBlank (h : Text.allBlank line.toList = true) : endsStatement line = false := by
  have htrimmed : Text.trimEnd line.toList = [] := by
    have hall : ∀ c ∈ line.toList.reverse, Text.isBlank c = true :=
      fun c hc => List.all_eq_true.mp h c (List.mem_reverse.mp hc)
    rw [Text.trimEnd, List.dropWhile_eq_nil_iff.mpr hall]
    rfl
  unfold endsStatement
  rw [htrimmed]
  rfl

/-- A line ends a statement if its last character that is no blank is a semicolon or a closing
brace. -/
theorem endsStatement_iff : endsStatement line = true ↔
    (Text.trimEnd line.toList).getLast? = some ';' ∨
      (Text.trimEnd line.toList).getLast? = some '\x7d' := by
  simp [endsStatement]

/-- The answer to a line is decided by the braces of what is collected with it, and by its own end. -/
theorem Sound.answer_iff (h : buffer.Sound) (line : String) :
    let text := buffer.text ++ if buffer.skips line then "" else line ++ "\n"
    (∀ source, (buffer.push line).1 = .ready source ↔
      source = text ∧ braceDepth text.toList = 0 ∧ endsStatement line = true) ∧
    ((buffer.push line).1 = .unbalanced ↔ braceDepth text.toList < 0) := by
  intro text
  have hcollected (hskips : buffer.skips line = false) : text = buffer.textWith line := by
    show buffer.text ++ (if buffer.skips line then "" else line ++ "\n") = _
    rw [hskips, if_neg Bool.false_ne_true, ← String.append_assoc]
    rfl
  have htakes := buffer.takes_push line
  generalize buffer.push line = result at htakes ⊢
  obtain ⟨answer, next⟩ := result
  cases htakes with
  | skipped hskips =>
    obtain ⟨hblank, hline⟩ := Bool.and_eq_true_iff.mp hskips
    have hends := endsStatement_of_allBlank hline
    have hdepth : braceDepth text.toList = 0 := by
      show braceDepth (buffer.text ++ (if buffer.skips line then "" else line ++ "\n")).toList = 0
      rw [if_pos hskips, h.tidy hblank]
      rfl
    refine ⟨fun source => iff_of_false nofun fun hready => ?_, iff_of_false nofun (by omega)⟩
    rw [hready.2.2] at hends
    cases hends
  | unbalanced hskips hdepth =>
    rw [hcollected hskips, h.counted.textWith line]
    exact ⟨fun source => iff_of_false nofun fun hready => Int.ne_of_lt hdepth hready.2.1,
      iff_of_true rfl hdepth⟩
  | ready hskips hdepth hends =>
    rw [hcollected hskips, h.counted.textWith line]
    refine ⟨fun source => ⟨fun hready => ?_, fun hready => ?_⟩, iff_of_false nofun (by omega)⟩
    · exact ⟨(Submission.ready.inj hready).symm, hdepth, hends⟩
    · rw [hready.1]
  | pending hskips hdepth hopen =>
    rw [hcollected hskips, h.counted.textWith line]
    refine ⟨fun source => iff_of_false nofun fun hready => ?_,
      iff_of_false nofun (Int.not_lt.mpr hdepth)⟩
    have hends := hopen hready.2.1
    rw [hready.2.2] at hends
    cases hends

end Buffer

/-- **A buffer loses and invents nothing.** After any lines it holds nothing, or something that is not
blank; its depth is how many more braces its text opens than closes, which is never negative, and so none
where the buffer is blank. The texts submitted, the texts thrown away and the text still collected are,
one after the other, the lines pushed, each with its end, without those that were blank and found a blank
buffer. The next line then is answered by a submission just if the text collected since the last release,
with this line, closes as many braces as it opens and the line ends in a semicolon or a closing brace; the
submission is this text. It is unbalanced just if the text closes more braces than it opens. -/
theorem pushes_accounted_for (lines : List String) :
    let pushes := Buffer.empty.pushes lines
    let buffer := Buffer.empty.after lines
    (buffer.text = "" ∨ ∃ c ∈ buffer.text.toList, Text.isBlank c = false) ∧
    (buffer.depth = (buffer.text.toList.count '\x7b' : Int) - buffer.text.toList.count '\x7d' ∧
      0 ≤ buffer.depth ∧ (buffer.isBlank = true → buffer.depth = 0)) ∧
    String.join (pushes.filterMap Push.released?) ++ buffer.text = unlines (keptLines pushes) ∧
    ∀ line : String,
      let text := unlines (keptLines (sinceRelease pushes ++ [⟨buffer, line⟩]))
      (∀ source, (buffer.push line).1 = .ready source ↔
        source = text ∧ text.toList.count '\x7b' = text.toList.count '\x7d' ∧
          ((Text.trimEnd line.toList).getLast? = some ';' ∨
            (Text.trimEnd line.toList).getLast? = some '\x7d')) ∧
      ((buffer.push line).1 = .unbalanced ↔
        text.toList.count '\x7b' < text.toList.count '\x7d') := by
  intro pushes buffer
  have hsound : buffer.Sound := Buffer.sound_empty.after lines
  refine ⟨hsound.text_cases, ⟨hsound.counted, hsound.level, hsound.counted.depth_of_isBlank⟩,
    Buffer.join_released_append_text lines, ?_⟩
  intro line text
  have htext : text = buffer.text ++ if buffer.skips line then "" else line ++ "\n" := by
    show unlines _ = _
    rw [unlines_keptLines_concat, ← Buffer.text_after lines]
    rfl
  have hzero : braceDepth text.toList = 0 ↔
      text.toList.count '\x7b' = text.toList.count '\x7d' := by
    unfold braceDepth
    omega
  have hnegative : braceDepth text.toList < 0 ↔
      text.toList.count '\x7b' < text.toList.count '\x7d' := by
    unfold braceDepth
    omega
  obtain ⟨hready, hunbalanced⟩ := hsound.answer_iff line
  rw [← htext] at hready hunbalanced
  refine ⟨fun source => ?_, hunbalanced.trans hnegative⟩
  rw [hready source, hzero, Buffer.endsStatement_iff]

end Dialogue

end Parlance
