import Mathlib.Data.List.TakeWhile
import Parlance.Stream

/-!
# Lines of a text, read back

An input is made of bytes, and a line of it ends at the first byte that is a line end. In UTF-8 this
byte stands for nothing but the character: every byte of a character beyond ASCII is 128 or more
(`toNat_of_mem_encoding`). So a text written line by line is read back line by line
(`readLine_unlines_cons`), provided that no line has a line end in it, nor a carriage return at its
end, which would be taken for a part of the line end. Any text at all is read as the lines it has
(`Text.lines`), one after the other: the first is read without its end, and the others are left
(`readLine_ofText_of_lines`).

Whatever the bytes are, text or not, a line is read without a look at what stands behind its end
(`exists_taken_of_readLine`). Only the end of the whole input can be told from no line end.
-/

namespace Parlance

/-! ## Bytes of a text -/

/-- The bytes of a text. -/
def bytesOf (text : String) : List UInt8 := text.toUTF8.data.toList

@[simp] theorem bytesOf_empty : bytesOf "" = [] := rfl

@[simp] theorem bytesOf_lineEnd : bytesOf "\n" = [Input.newline] := rfl

@[simp] theorem bytesOf_return : bytesOf "\r" = [Input.carriageReturn] := rfl

/-- The bytes of two texts are those of their concatenation. -/
@[simp] theorem bytesOf_append (first second : String) :
    bytesOf (first ++ second) = bytesOf first ++ bytesOf second := by
  simp only [bytesOf, String.toUTF8_eq_toByteArray, String.toByteArray_append, ByteArray.data_append,
    Array.toList_append]

theorem toByteArray_bytesOf (text : String) : (bytesOf text).toByteArray = text.toUTF8 := by
  apply ByteArray.ext
  rw [List.data_toByteArray, bytesOf, Array.toArray_toList]

/-- A text is encoded character by character. -/
theorem bytesOf_eq_flatMap (text : String) :
    bytesOf text = text.toList.flatMap String.utf8EncodeChar := by
  have hencode : text.toByteArray = text.toList.utf8Encode := by
    rw [← String.toByteArray_ofList, String.ofList_toList]
  rw [bytesOf, String.toUTF8_eq_toByteArray, hencode, List.utf8Encode, List.data_toByteArray]

/-- The bytes of a character beyond ASCII are beyond ASCII. -/
theorem le_of_mem_encoding {c : Char} (hc : 127 < c.toNat) :
    ∀ b ∈ String.utf8EncodeChar c, 128 ≤ b.toNat := by
  have hlong : ¬ c.val.toNat ≤ 127 := Nat.not_le.mpr hc
  unfold String.utf8EncodeChar
  dsimp only
  rw [if_neg hlong]
  -- Two, three or four bytes: the first is 192 or more, every other one 128 or more.
  split
  · simp only [List.forall_mem_cons, List.not_mem_nil, false_implies, implies_true, and_true,
        UInt8.toNat_ofNat']
    omega
  · split <;>
    · simp only [List.forall_mem_cons, List.not_mem_nil, false_implies, implies_true, and_true,
        UInt8.toNat_ofNat']
      omega

/-- A byte of ASCII in the encoding of a character is the character. -/
theorem toNat_of_mem_encoding {b : UInt8} {c : Char} (hb : b.toNat < 128)
    (h : b ∈ String.utf8EncodeChar c) : c.toNat = b.toNat := by
  by_cases hc : c.val.toNat ≤ 127
  · unfold String.utf8EncodeChar at h
    dsimp only at h
    rw [if_pos hc] at h
    cases List.mem_singleton.mp h
    rw [UInt8.toNat_ofNat', Nat.mod_eq_of_lt (by omega)]
    rfl
  · have hle := le_of_mem_encoding (Nat.lt_of_not_le hc) b h
    omega

/-! ## Lines -/

/-- A line that can be written and read back: no line end is in it, and no carriage return at its
end. -/
def PlainLine (line : String) : Prop :=
  '\n' ∉ line.toList ∧ line.toList.getLast? ≠ some '\r'

/-- Lines as a text, each with its end. -/
def unlines : List String → String
  | [] => ""
  | line :: rest => line ++ "\n" ++ unlines rest

/-- The byte of a line end stands in no other character. -/
theorem newline_not_mem_bytesOf {line : String} (h : '\n' ∉ line.toList) :
    Input.newline ∉ bytesOf line := by
  rw [bytesOf_eq_flatMap]
  intro hmem
  obtain ⟨c, hc, hbyte⟩ := List.mem_flatMap.mp hmem
  have hnewline : c = '\n' := Char.toNat_inj.mp (toNat_of_mem_encoding (by decide) hbyte)
  exact h (hnewline ▸ hc)

/-- The byte of a carriage return ends no other character. -/
theorem getLast?_bytesOf_ne {line : String} (h : line.toList.getLast? ≠ some '\r') :
    (bytesOf line).getLast? ≠ some Input.carriageReturn := by
  rw [bytesOf_eq_flatMap]
  intro hlast
  rcases List.eq_nil_or_concat line.toList with hnil | ⟨others, c, hline⟩
  · rw [hnil] at hlast
    cases hlast
  · rw [hline, List.concat_eq_append] at h hlast
    have hne : String.utf8EncodeChar c ≠ [] := String.utf8EncodeChar_ne_nil
    rw [List.flatMap_append, List.flatMap_singleton, List.getLast?_append,
      List.getLast?_eq_some_getLast hne, Option.some_or, Option.some.injEq] at hlast
    have hbyte : Input.carriageReturn ∈ String.utf8EncodeChar c := hlast ▸ List.getLast_mem hne
    have hreturn : c = '\r' := Char.toNat_inj.mp (toNat_of_mem_encoding (by decide) hbyte)
    exact h (by simp [hreturn])

namespace Text

/-- The lines of a text, each with its end; the last may have none. -/
def lines : List Char → List (List Char)
  | [] => []
  | c :: cs =>
    if c = '\n' then [c] :: lines cs
    else
      match lines cs with
      | [] => [[c]]
      | line :: more => (c :: line) :: more

/-- The lines of a text make up the text. -/
theorem flatten_lines (cs : List Char) : (lines cs).flatten = cs := by
  induction cs with
  | nil => rfl
  | cons c cs ih =>
    rw [lines]
    split
    · rw [List.flatten_cons, ih]
      rfl
    · cases hlines : lines cs with
      | nil =>
        rw [hlines] at ih
        rw [← ih]
        rfl
      | cons line more =>
        rw [hlines] at ih
        rw [← ih]
        rfl

/-- The first line of a text ends at the first line end, or it is all of the text; what stands behind it
has the other lines. -/
theorem exists_of_lines_eq_cons {cs line : List Char} {more : List (List Char)}
    (h : lines cs = line :: more) :
    ∃ back, cs = line ++ back ∧ lines back = more ∧
      ((∃ front, line = front ++ ['\n'] ∧ '\n' ∉ front) ∨ back = [] ∧ line ≠ [] ∧ '\n' ∉ line) := by
  induction cs generalizing line with
  | nil => cases h
  | cons c cs ih =>
    rw [lines] at h
    split at h
    · rename_i hc
      cases h
      exact ⟨cs, rfl, rfl, .inl ⟨[], by rw [hc]; rfl, List.not_mem_nil⟩⟩
    · rename_i hc
      have hne : '\n' ≠ c := fun heq => hc heq.symm
      cases hlines : lines cs with
      | nil =>
        rw [hlines] at h
        cases h
        have hcs := flatten_lines cs
        rw [hlines] at hcs
        exact ⟨cs, rfl, hlines, .inr ⟨hcs.symm, List.cons_ne_nil c [], by simpa using hne⟩⟩
      | cons next others =>
        rw [hlines] at h
        cases h
        obtain ⟨back, rfl, hback, ⟨front, rfl, hfront⟩ | ⟨rfl, -, hline⟩⟩ := ih hlines
        · exact ⟨back, rfl, hback, .inl ⟨c :: front, rfl, by simp [hne, hfront]⟩⟩
        · exact ⟨[], rfl, hback, .inr ⟨rfl, List.cons_ne_nil c next, by simp [hne, hline]⟩⟩

end Text

namespace Input

/-- The bytes of a text are this text again. -/
theorem decodeLine_bytesOf (text : String) : decodeLine (bytesOf text) = .line text := by
  have hvalid : text.toUTF8.IsValidUTF8 := text.isValidUTF8
  rw [decodeLine, toByteArray_bytesOf, String.fromUTF8?, dif_pos hvalid]
  rfl

theorem bne_newline_of_not_mem {bytes : List UInt8} (h : newline ∉ bytes) :
    ∀ b ∈ bytes, (b != newline) = true := by
  intro b hb
  rw [bne_iff_ne]
  rintro rfl
  exact h hb

/-- A line that has its end is read up to it. -/
theorem readLine_ended {line : List UInt8} (h : newline ∉ line) (rest : List UInt8)
    (ending : Ending) :
    readLine ⟨line ++ newline :: rest, ending⟩ =
      (decodeLine (dropCarriageReturn line), ⟨rest, ending⟩) := by
  have hinside := bne_newline_of_not_mem h
  have hline : (line ++ newline :: rest).takeWhile (· != newline) = line := by
    rw [List.takeWhile_append_of_pos hinside, List.takeWhile_cons_of_neg (by simp), List.append_nil]
  have hrest : (line ++ newline :: rest).dropWhile (· != newline) = newline :: rest := by
    rw [List.dropWhile_append_of_pos hinside, List.dropWhile_cons_of_neg (by simp)]
  unfold readLine
  dsimp only
  rw [hline, hrest]

/-- Bytes without a line end are read all at once, or not at all. -/
theorem readLine_unended {bytes : List UInt8} (h : newline ∉ bytes) (ending : Ending) :
    readLine ⟨bytes, ending⟩ = match ending with
      | .over => (if bytes.isEmpty then .over else decodeLine bytes, ⟨[], .over⟩)
      | .broken => (.failed .readFailed, ⟨[], .broken⟩)
      | .pending => (.pending, ⟨bytes, .pending⟩) := by
  have hinside := bne_newline_of_not_mem h
  unfold readLine
  dsimp only
  rw [List.takeWhile_eq_self_iff.mpr hinside, List.dropWhile_eq_nil_iff.mpr hinside]
  cases ending <;> rfl

/-- A line that was written is read, and what follows it is left. -/
theorem readLine_bytesOf {line : String} (h : PlainLine line) (rest : List UInt8) (ending : Ending) :
    readLine ⟨bytesOf line ++ newline :: rest, ending⟩ = (.line line, ⟨rest, ending⟩) := by
  rw [readLine_ended (newline_not_mem_bytesOf h.1), dropCarriageReturn,
    if_neg (getLast?_bytesOf_ne h.2), decodeLine_bytesOf]

/-- The input of a text. -/
def ofText (text : String) : Input := ofBytes (bytesOf text)

/-- Behind the last line, the input is over. -/
theorem readLine_unlines_nil : (ofText (unlines [])).readLine = (.over, ofText (unlines [])) := rfl

/-- The first of some plain lines is read, and the others are left. -/
theorem readLine_unlines_cons {line : String} (h : PlainLine line) (rest : List String) :
    (ofText (unlines (line :: rest))).readLine = (.line line, ofText (unlines rest)) := by
  rw [ofText, unlines, bytesOf_append, bytesOf_append, bytesOf_lineEnd, List.append_assoc]
  exact readLine_bytesOf h (bytesOf (unlines rest)) .over

/-- There are no more lines than bytes. -/
theorem length_le_unread_unlines (lines : List String) :
    lines.length ≤ (ofText (unlines lines)).unread.length := by
  show lines.length ≤ (bytesOf (unlines lines)).length
  induction lines with
  | nil => exact Nat.zero_le _
  | cons line rest ih =>
    rw [unlines, bytesOf_append, bytesOf_append, bytesOf_lineEnd, List.length_append,
      List.length_append, List.length_cons, List.length_cons]
    omega

/-! ## Lines of any text -/

/-- Bytes that are not refused as a line are those of a text. -/
theorem exists_bytesOf_of_decodeLine {line : List UInt8} (h : decodeLine line ≠ .failed .invalidText) :
    ∃ text, line = bytesOf text := by
  unfold decodeLine String.fromUTF8? at h
  by_cases hvalid : line.toByteArray.IsValidUTF8
  · refine ⟨String.fromUTF8 line.toByteArray hvalid, ?_⟩
    show line = line.toByteArray.data.toList
    rw [List.data_toByteArray]
  · rw [dif_neg hvalid] at h
    exact absurd rfl h

/-- Lines that are texts make up a text. -/
theorem exists_bytesOf_intercalate {lines : List (List UInt8)}
    (h : ∀ line ∈ lines, ∃ text, line = bytesOf text) :
    ∃ text, [newline].intercalate lines = bytesOf text := by
  induction lines with
  | nil => exact ⟨"", rfl⟩
  | cons line rest ih =>
    obtain ⟨⟨text, rfl⟩, hrest⟩ := List.forall_mem_cons.mp h
    obtain ⟨later, hlater⟩ := ih hrest
    cases rest with
    | nil => exact ⟨text, by simp⟩
    | cons second others =>
      refine ⟨text ++ "\n" ++ later, ?_⟩
      rw [List.intercalate_cons_cons, hlater, bytesOf_append, bytesOf_append, bytesOf_lineEnd]

/-- An input of lines none of which would be refused is the input of a text. -/
theorem exists_ofText_of_lines {bytes : List UInt8}
    (h : ∀ line ∈ bytes.splitOn newline, decodeLine line ≠ .failed .invalidText) :
    ∃ text, ofBytes bytes = ofText text := by
  obtain ⟨text, htext⟩ :=
    exists_bytesOf_intercalate fun line hline => exists_bytesOf_of_decodeLine (h line hline)
  rw [List.intercalate_splitOn] at htext
  exact ⟨text, congrArg ofBytes htext⟩

theorem dropCarriageReturn_concat (bytes : List UInt8) :
    dropCarriageReturn (bytes ++ [carriageReturn]) = bytes := by
  rw [dropCarriageReturn, if_pos List.getLast?_concat, List.dropLast_concat]

/-- A line that ends in a carriage return is a shorter line and the return. -/
theorem exists_eq_append_return {line : String} (h : line.toList.getLast? = some '\r') :
    ∃ shorter : String, line = shorter ++ "\r" := by
  obtain ⟨others, hothers⟩ := List.getLast?_eq_some_iff.mp h
  refine ⟨String.ofList others, ?_⟩
  rw [← String.toList_inj, hothers]
  simp [String.toList_append]

/-- A text without the carriage return at its end is a text. -/
theorem exists_dropCarriageReturn_bytesOf (line : String) :
    ∃ shorter, dropCarriageReturn (bytesOf line) = bytesOf shorter ∧
      (line.toList = shorter.toList ∨ line.toList = shorter.toList ++ ['\r']) := by
  by_cases hlast : line.toList.getLast? = some '\r'
  · obtain ⟨shorter, rfl⟩ := exists_eq_append_return hlast
    refine ⟨shorter, ?_, .inr String.toList_append⟩
    rw [bytesOf_append, bytesOf_return, dropCarriageReturn_concat]
  · exact ⟨line, if_neg (getLast?_bytesOf_ne hlast), .inl rfl⟩

/-- What may stand at the end of a line: nothing, or a line end with or without a carriage return. -/
def IsLineEnd (ending : List Char) : Prop :=
  ending = [] ∨ ending = ['\n'] ∨ ending = ['\r', '\n']

/-- Of a text that has a line, the first one is read without its end, and the others are left. -/
theorem readLine_ofText_of_lines {text : String} {line : List Char} {more : List (List Char)}
    (h : Text.lines text.toList = line :: more) :
    ∃ read ending later, (ofText text).readLine = (.line read, ofText later) ∧
      Text.lines later.toList = more ∧ line = read.toList ++ ending ∧ IsLineEnd ending := by
  obtain ⟨back, hback, hmore, ⟨front, rfl, hfront⟩ | ⟨rfl, hne, hline⟩⟩ := Text.exists_of_lines_eq_cons h
  · have hsplit : text = String.ofList front ++ "\n" ++ String.ofList back := by
      rw [← String.toList_inj, hback]
      simp [String.toList_append]
    have htext : ofText text =
        ⟨bytesOf (String.ofList front) ++ newline :: bytesOf (String.ofList back), .over⟩ := by
      rw [hsplit, ofText, ofBytes, bytesOf_append, bytesOf_append, bytesOf_lineEnd, List.append_assoc]
      rfl
    have hended : '\n' ∉ (String.ofList front).toList := by rwa [String.toList_ofList]
    obtain ⟨read, hdropped, hread⟩ := exists_dropCarriageReturn_bytesOf (String.ofList front)
    rw [htext, readLine_ended (newline_not_mem_bytesOf hended), hdropped, decodeLine_bytesOf]
    rw [String.toList_ofList] at hread
    have hlater : Text.lines (String.ofList back).toList = more := by rwa [String.toList_ofList]
    rcases hread with rfl | rfl
    · exact ⟨read, ['\n'], _, rfl, hlater, rfl, .inr (.inl rfl)⟩
    · exact ⟨read, ['\r', '\n'], _, rfl, hlater, by simp, .inr (.inr rfl)⟩
  · rw [List.append_nil] at hback
    have hbytes : ¬ (bytesOf text).isEmpty = true := by
      intro hnil
      have hsame : decodeLine (bytesOf text) = decodeLine (bytesOf "") := by
        rw [List.isEmpty_iff.mp hnil, bytesOf_empty]
      rw [decodeLine_bytesOf, decodeLine_bytesOf] at hsame
      rw [LineRead.line.inj hsame] at hback
      exact hne hback.symm
    have hreads := readLine_unended (newline_not_mem_bytesOf (hback ▸ hline)) .over
    rw [if_neg hbytes, decodeLine_bytesOf] at hreads
    exact ⟨text, [], "", hreads, hmore, by rw [hback, List.append_nil], .inl rfl⟩

/-- Only the empty text has no lines. -/
theorem eq_empty_of_lines {text : String} (h : Text.lines text.toList = []) : text = "" := by
  have hflatten := Text.flatten_lines text.toList
  rw [h] at hflatten
  exact String.toList_inj.mp hflatten.symm

/-- The input of a text is over, or its next line is a text and so is what is left. -/
theorem readLine_ofText (text : String) :
    (text = "" ∧ (ofText text).readLine = (.over, ofText "")) ∨
      ∃ line later, (ofText text).readLine = (.line line, ofText later) := by
  cases hlines : Text.lines text.toList with
  | nil =>
    obtain rfl := eq_empty_of_lines hlines
    exact .inl ⟨rfl, rfl⟩
  | cons line more =>
    obtain ⟨read, -, later, hread, -⟩ := readLine_ofText_of_lines hlines
    exact .inr ⟨read, later, hread⟩

/-- What is left of a text is a text. -/
theorem exists_ofText_of_readLine {input rest : Input} {read : LineRead}
    (h : ∃ text, input = ofText text) (hread : input.readLine = (read, rest)) :
    ∃ text, rest = ofText text := by
  obtain ⟨text, rfl⟩ := h
  rcases readLine_ofText text with ⟨-, hover⟩ | ⟨line, later, hline⟩
  · rw [hread] at hover
    exact ⟨_, (Prod.mk.inj hover).2⟩
  · rw [hread] at hline
    exact ⟨_, (Prod.mk.inj hline).2⟩

/-! ## What a line takes -/

/-- An input behind some bytes. -/
def behind (input : Input) (bytes : List UInt8) : Input := ⟨bytes ++ input.unread, input.ending⟩

/-- Bytes can be put back in two steps. -/
theorem behind_behind (input : Input) (first second : List UInt8) :
    (input.behind second).behind first = input.behind (first ++ second) := by
  simp only [behind, List.append_assoc]

/-- An input tells which bytes were put before another. -/
theorem behind_inj {input : Input} {first second : List UInt8}
    (h : input.behind first = input.behind second) : first = second :=
  List.append_cancel_right (congrArg unread h)

/-- Reading a line takes some bytes from the front of the input. When this was not all of the input,
what stands behind them plays no part in it. -/
theorem exists_taken_of_readLine {input rest : Input} {read : LineRead}
    (h : input.readLine = (read, rest)) :
    ∃ taken, input = rest.behind taken ∧
      (rest.unread ≠ [] → read ≠ .pending →
        ∀ later : Input, (later.behind taken).readLine = (read, later)) := by
  obtain ⟨bytes, ending⟩ := input
  by_cases hended : newline ∈ bytes
  · obtain ⟨line, others, rfl, hline⟩ := List.eq_append_cons_of_mem hended
    rw [readLine_ended hline] at h
    cases h
    refine ⟨line ++ [newline], by simp [behind], ?_⟩
    intro _ _ later
    have htaken : later.behind (line ++ [newline]) = ⟨line ++ newline :: later.unread, later.ending⟩ := by
      simp [behind]
    rw [htaken, readLine_ended hline]
  · rw [readLine_unended hended] at h
    cases ending with
    | pending =>
      cases h
      exact ⟨[], rfl, fun _ hread => absurd rfl hread⟩
    | _ =>
      cases h
      exact ⟨bytes, by simp [behind], fun hrest => absurd rfl hrest⟩

/-- A line that was read was not empty with its end. -/
theorem length_lt_of_readLine {input rest : Input} {text : String}
    (h : input.readLine = (.line text, rest)) : rest.unread.length < input.unread.length := by
  obtain ⟨bytes, ending⟩ := input
  by_cases hended : newline ∈ bytes
  · obtain ⟨line, others, rfl, hline⟩ := List.eq_append_cons_of_mem hended
    rw [readLine_ended hline, Prod.mk.injEq] at h
    obtain ⟨-, rfl⟩ := h
    simp only [List.length_append, List.length_cons]
    omega
  · rw [readLine_unended hended] at h
    cases ending with
    | broken => cases h
    | pending => cases h
    | _ =>
      cases bytes with
      | nil => cases h
      | cons b others =>
        obtain ⟨-, rfl⟩ := Prod.mk.inj h
        exact Nat.zero_lt_succ _

end Input

end Parlance
