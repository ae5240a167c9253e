/-!
# Texts and single marks

A text can be split at the first place where a mark stands, and it can be freed of a mark that is
repeated at its end.
-/

namespace Parlance.Text

/-- What stands before and behind the first `mark`, if there is one. -/
def splitOnce (mark : Char) (cs : List Char) : Option (List Char × List Char) :=
  match cs.dropWhile (· != mark) with
  | [] => none
  | _ :: behind => some (cs.takeWhile (· != mark), behind)

/-- A text without the marks at its end. -/
def trimMarks (mark : Char) (cs : List Char) : List Char :=
  (cs.reverse.dropWhile (· == mark)).reverse

variable {mark : Char} {front : List Char}

/-- A text without the mark is not split. -/
theorem splitOnce_of_not_mem (h : mark ∉ front) : splitOnce mark front = none := by
  have hfront : ∀ c ∈ front, (c != mark) = true := fun c hc => bne_iff_ne.mpr fun heq => h (heq ▸ hc)
  have hnone : (front ++ []).dropWhile (· != mark) = [] := List.dropWhile_append_of_pos hfront
  rw [List.append_nil] at hnone
  rw [splitOnce, hnone]

/-- A text is split at the first mark, and further ones stay behind it. -/
theorem splitOnce_append (h : mark ∉ front) (behind : List Char) :
    splitOnce mark (front ++ mark :: behind) = some (front, behind) := by
  have hfront : ∀ c ∈ front, (c != mark) = true := fun c hc => bne_iff_ne.mpr fun heq => h (heq ▸ hc)
  have hbehind : (front ++ mark :: behind).dropWhile (· != mark) = mark :: behind := by
    rw [List.dropWhile_append_of_pos hfront, List.dropWhile_cons, if_neg (by simp)]
  have hbefore : (front ++ mark :: behind).takeWhile (· != mark) = front := by
    rw [List.takeWhile_append_of_pos hfront, List.takeWhile_cons, if_neg (by simp), List.append_nil]
  rw [splitOnce, hbehind, hbefore]

end Parlance.Text
