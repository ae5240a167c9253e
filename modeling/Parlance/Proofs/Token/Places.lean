import Mathlib.Data.List.DropRight
import Mathlib.Data.List.Induction
import Parlance.Proofs.Token.Scanning

/-!
# Places by bytes are places by counting

The lexer knows two numbers about places: the line it is on and the byte at which this line begins.
They change at a line end of its own and over the line ends inside a text literal, and nowhere else;
a column is the number of characters between two bytes.

`LineMark.Follows` ties both numbers to what was read so far: the line is one more than the line ends
in it, and the line begins behind the last of them. Every kind of piece keeps it
(`LineMark.Follows.past`): blanks, comments, marks, names and numbers hold no line end
(`lineEnds_of_scan`), a line end of its own is one, and a literal is gone through character by
character. Where it holds, the bytes between the line's first and the current one are whole
characters, so the place that is computed is the counted one (`LineMark.Follows.positionOf`).

So the lexer is the one that threads a place through the pieces (`tokenize_eq_tokensFrom`), which is
the form that laws about texts put together use.
-/

namespace Parlance

open Text

/-! ## Places by counting -/

/-- The place behind a text: one line for every line end in it, and one column for every character
behind the last of them, both counted from one. -/
def placeAfter (before : List Char) : Position where
  line := 1 + before.count '\n'
  column := 1 + (before.reverse.takeWhile (· != '\n')).length

/-- One more character moves the place by one step. -/
theorem placeAfter_concat (before : List Char) (c : Char) :
    placeAfter (before ++ [c]) = (placeAfter before).next c := by
  by_cases h : c = '\n'
  · subst h
    simp [placeAfter, Position.next, Nat.add_assoc]
  · have hne : (c != '\n') = true := bne_iff_ne.mpr h
    simp [placeAfter, Position.next, h, hne, List.count_append, Nat.add_comm]

/-- The running place of a text is the counted one. -/
theorem start_after (before : List Char) : Position.start.after before = placeAfter before := by
  induction before using List.reverseRecOn with
  | nil => rfl
  | append_singleton before c ih =>
    rw [Position.after_append, ih, placeAfter_concat]
    rfl

/-- The place behind a text goes on from the place behind its front. -/
theorem placeAfter_append (before cs : List Char) :
    (placeAfter before).after cs = placeAfter (before ++ cs) := by
  rw [← start_after, ← start_after, Position.after_append]

/-! ## The mark behind what was read -/

namespace LineMark

variable {mark : LineMark} {before : List Char}

/-- A mark knows the line behind a text: its number, and the byte at which it begins. -/
structure Follows (mark : LineMark) (before : List Char) : Prop where
  line : mark.line = 1 + before.count '\n'
  lineStart : mark.lineStart = byteLength (before.rdropWhile (· != '\n'))

/-- Before the text, the mark stands at its first line. -/
theorem start_follows : start.Follows [] := ⟨rfl, rfl⟩

/-- The characters between the first byte of the line and the current one are those of the line. -/
theorem Follows.positionOf (h : mark.Follows before) (rest : List Char) :
    mark.positionOf (before ++ rest) (byteLength before) = placeAfter before := by
  have hsplit : before.rdropWhile (· != '\n') ++ before.rtakeWhile (· != '\n') = before :=
    List.rdropWhile_append_rtakeWhile
  have hslice : slice? (before ++ rest) mark.lineStart (byteLength before) =
      some (before.rtakeWhile (· != '\n')) := by
    have hslice := slice?_append (before.rdropWhile (· != '\n')) (before.rtakeWhile (· != '\n')) rest
    rwa [hsplit, ← h.lineStart] at hslice
  rw [LineMark.positionOf, hslice, h.line, placeAfter, Option.map_some, Option.getD_some,
    List.rtakeWhile, List.length_reverse, Nat.add_comm 1 (List.length _)]

/-- A line end begins a line at the byte behind it. -/
theorem Follows.newline (h : mark.Follows before) :
    (mark.newline (byteLength before + 1)).Follows (before ++ ['\n']) where
  line := by rw [LineMark.newline, h.line, List.count_append, List.count_singleton_self, Nat.add_assoc]
  lineStart := by
    rw [List.rdropWhile_concat_neg _ _ _ (by decide), byteLength_append]
    rfl

/-- Any other character leaves the line as it is. -/
theorem Follows.concat (h : mark.Follows before) {c : Char} (hc : c ≠ '\n') :
    mark.Follows (before ++ [c]) where
  line := by
    rw [h.line, List.count_append, List.count_singleton, if_neg (by simpa using hc), Nat.add_zero]
  lineStart := by rw [h.lineStart, List.rdropWhile_concat_pos _ _ _ (by simpa using hc)]

/-- Going through characters one by one keeps the mark in step with them. -/
theorem Follows.advanceOver (cs : List Char) (h : mark.Follows before) :
    (mark.advanceOver cs (byteLength before)).Follows (before ++ cs) := by
  induction cs generalizing mark before with
  | nil => rwa [List.append_nil]
  | cons c cs ih =>
    have hstep : (if c = '\n' then mark.newline (byteLength before + 1) else mark).Follows
        (before ++ [c]) := by
      by_cases hc : c = '\n'
      · rw [if_pos hc, hc]
        exact h.newline
      · rw [if_neg hc]
        exact h.concat hc
    have hrest := ih hstep
    rw [byteLength_append, List.append_assoc] at hrest
    exact hrest

/-- Without line ends there is nothing to go through. -/
theorem advanceOver_of_not_mem {cs : List Char} (h : '\n' ∉ cs) (mark : LineMark) (start : Nat) :
    mark.advanceOver cs start = mark := by
  induction cs generalizing start with
  | nil => rfl
  | cons c cs ih =>
    obtain ⟨hc, hcs⟩ := not_or.mp (mt List.mem_cons.mpr h)
    rw [LineMark.advanceOver, if_neg (Ne.symm hc), ih hcs]

end LineMark

/-! ## What a piece does to the mark -/

namespace Lexer

section Pieces

variable {c : Char} {cs : List Char} {piece : Piece} {extent : Nat}

/-- Only a line end of its own and a text literal hold line ends. -/
theorem lineEnds_of_scan (h : scan c cs = .ok (piece, extent)) :
    match piece with
    | .lineEnd => c :: cs.take extent = ['\n']
    | .quoted => True
    | .skipped | .plain _ => '\n' ∉ c :: cs.take extent := by
  unfold scan at h
  split at h
  · rename_i hc
    cases h
    exact congrArg (· :: []) hc
  split at h
  · rename_i hc _
    cases h
    dsimp only
    rw [take_takeWhile, List.mem_cons, not_or]
    exact ⟨Ne.symm hc, fun hmem => by simpa [isInlineBlank] using List.mem_takeWhile_imp hmem⟩
  split at h
  · rename_i hcomment
    cases h
    dsimp only
    rw [take_takeWhile, hcomment.1, List.mem_cons, not_or]
    exact ⟨by decide, fun hmem => by simpa using List.mem_takeWhile_imp hmem⟩
  split at h
  · rename_i hname
    cases h
    dsimp only
    rw [take_takeWhile]
    exact not_mem_of_nameShape
      (nameShape_cons_iff.mpr ⟨hname, fun d hd => List.mem_takeWhile_imp hd⟩) (by decide) (by decide)
  split at h
  · rename_i hdigit
    cases h
    exact not_mem_of_unsignedShape (unsignedShape_digit hdigit) (by decide) (by decide)
  split at h
  · rename_i hminus
    split at h
    · rename_i hdigit
      cases h
      dsimp only
      rw [hminus, List.mem_cons, not_or]
      exact ⟨by decide, not_mem_of_unsignedShape (unsignedShape_minus hdigit) (by decide) (by decide)⟩
    · cases h
  split at h
  · split at h
    · cases h
      trivial
    · cases h
  split at h
  · rename_i kind hmark
    cases h
    have hmarks : ∀ entry ∈ marks, '\n' ∉ [entry.1] := by decide
    exact hmarks _ (mem_marks hmark)
  · cases h

/-- Whatever a piece is, the mark behind it is the one that going through its characters gives. -/
theorem past_eq_advanceOver (h : scan c cs = .ok (piece, extent)) (mark : LineMark) (start : Nat) :
    mark.past piece (c :: cs.take extent) start = mark.advanceOver (c :: cs.take extent) start := by
  have hlines := lineEnds_of_scan h
  cases piece with
  | lineEnd =>
    dsimp only at hlines
    rw [hlines]
    rfl
  | quoted => rfl
  | skipped => rw [LineMark.advanceOver_of_not_mem hlines, LineMark.past]
  | plain kind => rw [LineMark.advanceOver_of_not_mem hlines, LineMark.past]

end Pieces

/-! ## Reading with a running place -/

/-- The tokens of the characters that begin at `position`, closed by the end of the input. -/
def tokensFrom (position : Position) : List Char → Except LexicalError (List Token)
  | [] => .ok [⟨.endOfInput, "", position⟩]
  | c :: cs =>
    match scan c cs with
    | .error fault => .error ⟨fault, position⟩
    | .ok (piece, extent) =>
      let lexeme := c :: cs.take extent
      match tokensFrom (position.after lexeme) (cs.drop extent) with
      | .error error => .error error
      | .ok tokens => .ok ((piece.token? lexeme position).toList ++ tokens)
termination_by cs => cs.length
decreasing_by exact Nat.lt_succ_of_le (List.length_drop ▸ Nat.sub_le _ _)

/-- A piece gives its token at the place it begins, and the others go on behind it. -/
theorem tokensFrom_cons_of_ok {position : Position} {c : Char} {cs : List Char} {piece : Piece}
    {extent : Nat} (h : scan c cs = .ok (piece, extent)) :
    tokensFrom position (c :: cs) =
      (tokensFrom (position.after (c :: cs.take extent)) (cs.drop extent)).map
        ((piece.token? (c :: cs.take extent) position).toList ++ ·) := by
  rw [tokensFrom, h]
  dsimp only
  cases tokensFrom (position.after (c :: cs.take extent)) (cs.drop extent) <;> rfl

end Lexer

/-- Every kind of piece keeps the mark in step with what was read. -/
theorem LineMark.Follows.past {mark : LineMark} {before : List Char} (h : mark.Follows before)
    {c : Char} {cs : List Char} {piece : Lexer.Piece} {extent : Nat}
    (hscan : Lexer.scan c cs = .ok (piece, extent)) :
    (mark.past piece (c :: cs.take extent) (byteLength before)).Follows
      (before ++ (c :: cs.take extent)) := by
  rw [Lexer.past_eq_advanceOver hscan]
  exact h.advanceOver _

namespace Lexer

/-- A piece moves the mark past its line ends and the offset past its bytes. -/
theorem tokensAt_cons_of_ok {source : List Char} {mark : LineMark} {offset : Nat} {c : Char}
    {cs : List Char} {piece : Piece} {extent : Nat} (h : scan c cs = .ok (piece, extent)) :
    tokensAt source mark offset (c :: cs) =
      (tokensAt source (mark.past piece (c :: cs.take extent) offset)
        (offset + byteLength (c :: cs.take extent)) (cs.drop extent)).map
          ((piece.token? (c :: cs.take extent) (mark.positionOf source offset)).toList ++ ·) := by
  rw [tokensAt, h]
  dsimp only
  cases tokensAt source (mark.past piece (c :: cs.take extent) offset)
    (offset + byteLength (c :: cs.take extent)) (cs.drop extent) <;> rfl

/-- A mark that follows what was read gives the places that counting gives. -/
theorem tokensAt_eq_tokensFrom {mark : LineMark} {before : List Char} (h : mark.Follows before)
    (cs : List Char) :
    tokensAt (before ++ cs) mark (byteLength before) cs = tokensFrom (placeAfter before) cs := by
  -- The induction is on how much is left: a piece has a first character, so less is left behind it.
  induction hn : cs.length using Nat.strongRecOn generalizing mark before cs with
  | ind n ih =>
    cases cs with
    | nil =>
      have hend := h.positionOf []
      rw [List.append_nil] at hend ⊢
      rw [tokensAt, tokensFrom, hend]
    | cons c cs =>
      cases hscan : scan c cs with
      | error fault => rw [tokensAt, tokensFrom, hscan, h.positionOf]
      | ok result =>
        obtain ⟨piece, extent⟩ := result
        have hless : (cs.drop extent).length < n := by
          rw [← hn, List.length_cons, List.length_drop]
          omega
        have hsource : before ++ (c :: cs.take extent) ++ cs.drop extent = before ++ c :: cs := by
          rw [List.append_assoc, List.cons_append, List.take_append_drop]
        have hrest := ih _ hless (h.past hscan) (cs.drop extent) rfl
        rw [hsource, byteLength_append, ← placeAfter_append] at hrest
        rw [tokensAt_cons_of_ok hscan, tokensFrom_cons_of_ok hscan, hrest, h.positionOf]

end Lexer

/-- **The lexer's two numbers lead to the counted places.** Its tokens are those of a lexer that
threads the place itself. -/
theorem tokenize_eq_tokensFrom (source : String) :
    tokenize source = Lexer.tokensFrom .start source.toList :=
  Lexer.tokensAt_eq_tokensFrom LineMark.start_follows source.toList

end Parlance
