import Parlance.Proofs.Stream.Lines

/-!
# An input, line by line

An input is lines, each with its end, which is a newline with or without a carriage return before it, and
perhaps a last one without. What stands on a line is a text, or it is no text at all. `WrittenLines` puts
such lines together to bytes, and `Console.readLines` reads as often as it is asked, whatever becomes of an
attempt.

Both directions are shown (`lines_read_in_turn`). Forward, every attempt gives the line whose turn it is: a
text as it stands, a failure for a line that is no text and for no other, and when all lines are read,
nothing. One step of this is `EndedLine.readLine_bytes`, and `Console.readLines_ended` the induction on the
lines. Exactness is the other direction: there are no bytes that are not such lines
(`WrittenLines.exists_bytes_eq`).
-/

namespace Parlance

/-! ## Lines as they are written -/

/-- How the end of a line is written. -/
inductive LineEnd where
  /-- With a newline. -/
  | newline
  /-- With a carriage return and a newline. -/
  | returnNewline
deriving DecidableEq

/-- The bytes of the end of a line. -/
def LineEnd.bytes : LineEnd → List UInt8
  | newline => [Input.newline]
  | returnNewline => [Input.carriageReturn, Input.newline]

/-- What stands on a line, without its end. -/
inductive LineContent where
  /-- A text. -/
  | text (content : String) (unbroken : '\n' ∉ content.toList)
  /-- Bytes that are no text. -/
  | garbled (bytes : List UInt8) (unbroken : Input.newline ∉ bytes)
      (invalid : ∀ text, bytesOf text ≠ bytes)

namespace LineContent

/-- The bytes of a line without its end. -/
def bytes : LineContent → List UInt8
  | text content _ => bytesOf content
  | garbled bytes _ _ => bytes

/-- Whether a text has a carriage return at its end. -/
def EndsInReturn : LineContent → Prop
  | text content _ => content.toList.getLast? = some '\r'
  | garbled _ _ _ => False

/-- What reading the line gives: the text as it stands, or a failure. -/
def answer : LineContent → Except ConsoleStop (Option String)
  | text content _ => .ok (some content)
  | garbled _ _ _ => .error (.failed .invalidText)

end LineContent

/-- A line with its end. A carriage return at the end of a text would be taken for a part of a line end that
has none. -/
structure EndedLine where
  content : LineContent
  ending : LineEnd
  separate : ending = .newline → ¬ content.EndsInReturn

/-- The bytes of a line with its end. -/
def EndedLine.bytes (line : EndedLine) : List UInt8 := line.content.bytes ++ line.ending.bytes

/-- Lines with their ends, and perhaps one without. -/
structure WrittenLines where
  ended : List EndedLine
  last : Option LineContent
  last_nonempty : ∀ content ∈ last, content.bytes ≠ []

namespace WrittenLines

/-- What stands on the lines, in order. -/
def contents (lines : WrittenLines) : List LineContent :=
  lines.ended.map EndedLine.content ++ lines.last.toList

/-- The lines as bytes. -/
def bytes (lines : WrittenLines) : List UInt8 :=
  lines.ended.flatMap EndedLine.bytes ++ lines.last.toList.flatMap LineContent.bytes

end WrittenLines

/-! ## Reading them -/

namespace Console

/-- What an action gives or why it stopped, and the streams that it left in either case. -/
def attempt {α : Type} (action : Console α) (streams : Streams) : Except ConsoleStop α × Streams :=
  match action streams with
  | .ok value rest => (.ok value, rest)
  | .error stop rest => (.error stop, rest)

/-- As many attempts to read a line, one after the other: what they give, and the streams behind them. -/
def readLines : Nat → Streams → List (Except ConsoleStop (Option String)) × Streams
  | 0, streams => ([], streams)
  | count + 1, streams =>
    let (answer, rest) := attempt readLine streams
    let (answers, rest) := readLines count rest
    (answer :: answers, rest)

/-- The first attempt comes first, and the others go on where it stops. -/
theorem readLines_succ {streams rest : Streams} {answer : Except ConsoleStop (Option String)}
    (h : attempt readLine streams = (answer, rest)) (count : Nat) :
    readLines (count + 1) streams = (answer :: (readLines count rest).1, (readLines count rest).2) := by
  rw [readLines, h]

end Console

namespace LineContent

open Input

/-- A line has no line end within it. -/
theorem newline_not_mem_bytes (content : LineContent) : newline ∉ content.bytes := by
  cases content with
  | text content unbroken => exact newline_not_mem_bytesOf unbroken
  | garbled bytes unbroken invalid => exact unbroken

/-- How a line is read that holds this and no more. -/
def read : LineContent → LineRead
  | text content _ => .line content
  | garbled _ _ _ => .failed .invalidText

/-- Bytes that encode no text are refused. -/
theorem decodeLine_of_invalid {bytes : List UInt8} (h : ∀ text, bytesOf text ≠ bytes) :
    decodeLine bytes = .failed .invalidText := by
  by_contra hne
  obtain ⟨text, htext⟩ := exists_bytesOf_of_decodeLine hne
  exact h text htext.symm

/-- A line is decoded to what it was written as, or refused if it was no text. -/
theorem decodeLine_bytes (content : LineContent) : decodeLine content.bytes = content.read := by
  cases content with
  | text content unbroken => exact decodeLine_bytesOf content
  | garbled bytes unbroken invalid => exact decodeLine_of_invalid invalid

/-- A carriage return more does not make a text of bytes that are none. -/
theorem bytesOf_ne_dropCarriageReturn {bytes : List UInt8} (h : ∀ text, bytesOf text ≠ bytes) :
    ∀ text, bytesOf text ≠ dropCarriageReturn bytes := by
  intro text htext
  by_cases hlast : bytes.getLast? = some carriageReturn
  · obtain ⟨others, rfl⟩ := List.getLast?_eq_some_iff.mp hlast
    rw [dropCarriageReturn_concat] at htext
    exact h (text ++ "\r") (by rw [bytesOf_append, htext, bytesOf_return])
  · rw [dropCarriageReturn, if_neg hlast] at htext
    exact h text htext

/-- A carriage return is dropped only from lines that end in one. -/
theorem decodeLine_dropCarriageReturn {content : LineContent} (h : ¬ content.EndsInReturn) :
    decodeLine (dropCarriageReturn content.bytes) = content.read := by
  cases content with
  | text content unbroken =>
    have hkept : dropCarriageReturn (bytesOf content) = bytesOf content := if_neg (getLast?_bytesOf_ne h)
    show decodeLine (dropCarriageReturn (bytesOf content)) = _
    rw [hkept]
    exact decodeLine_bytesOf content
  | garbled bytes unbroken invalid => exact decodeLine_of_invalid (bytesOf_ne_dropCarriageReturn invalid)

end LineContent

namespace EndedLine

open Input

/-- One step: a line is read up to its end, whatever follows. -/
theorem readLine_bytes (line : EndedLine) (rest : List UInt8) :
    (ofBytes (line.bytes ++ rest)).readLine = (line.content.read, ofBytes rest) := by
  obtain ⟨content, ending, separate⟩ := line
  have hunbroken := content.newline_not_mem_bytes
  cases ending with
  | newline =>
    have hbytes : content.bytes ++ [newline] ++ rest = content.bytes ++ newline :: rest := by simp
    show readLine ⟨content.bytes ++ [newline] ++ rest, .over⟩ = _
    rw [hbytes, readLine_ended hunbroken, LineContent.decodeLine_dropCarriageReturn (separate rfl)]
    rfl
  | returnNewline =>
    have hbytes : content.bytes ++ [carriageReturn, newline] ++ rest =
        content.bytes ++ [carriageReturn] ++ newline :: rest := by simp
    have hline : newline ∉ content.bytes ++ [carriageReturn] := by
      rw [List.mem_append, List.mem_singleton, not_or]
      exact ⟨hunbroken, by decide⟩
    show readLine ⟨content.bytes ++ [carriageReturn, newline] ++ rest, .over⟩ = _
    rw [hbytes, readLine_ended hline, dropCarriageReturn_concat, LineContent.decodeLine_bytes]
    rfl

end EndedLine

/-- A line without an end is read as it stands. -/
theorem LineContent.readLine_bytes {content : LineContent} (h : content.bytes ≠ []) :
    (Input.ofBytes content.bytes).readLine = (content.read, Input.ofBytes []) := by
  have hnonempty : ¬ content.bytes.isEmpty = true := mt List.isEmpty_iff.mp h
  show Input.readLine ⟨content.bytes, .over⟩ = _
  rw [Input.readLine_unended content.newline_not_mem_bytes]
  dsimp only
  rw [if_neg hnonempty, content.decodeLine_bytes]
  rfl

namespace Console

/-- An attempt has the answer that the line calls for, and the next one begins behind it. -/
theorem attempt_readLine {input rest : Input} {content : LineContent}
    (h : input.readLine = (content.read, rest)) (output : Output) :
    attempt readLine ⟨input, output⟩ = (content.answer, ⟨rest, output⟩) := by
  unfold attempt readLine
  dsimp only
  rw [h]
  cases content <;> rfl

/-- Behind the end of the input, every further attempt finds that it is over. -/
theorem readLines_over (output : Output) (count : Nat) :
    readLines count ⟨.ofBytes [], output⟩ = (List.replicate count (.ok none), ⟨.ofBytes [], output⟩) := by
  induction count with
  | zero => rfl
  | succ count ih =>
    have hover : attempt readLine ⟨.ofBytes [], output⟩ = (.ok none, ⟨.ofBytes [], output⟩) := rfl
    rw [readLines_succ hover, ih, List.replicate_succ]

/-- Lines with their ends are read in turn, and reading goes on behind them. -/
theorem readLines_ended (lines : List EndedLine) (rest : List UInt8) (output : Output) (count : Nat) :
    readLines (lines.length + count) ⟨.ofBytes (lines.flatMap EndedLine.bytes ++ rest), output⟩ =
      (lines.map (·.content.answer) ++ (readLines count ⟨.ofBytes rest, output⟩).1,
        (readLines count ⟨.ofBytes rest, output⟩).2) := by
  induction lines with
  | nil => rw [List.length_nil, Nat.zero_add]; rfl
  | cons line lines ih =>
    have hline := attempt_readLine
      (line.readLine_bytes (lines.flatMap EndedLine.bytes ++ rest)) output
    rw [List.flatMap_cons, List.append_assoc, List.length_cons, Nat.succ_add_eq_add_succ,
      Nat.add_succ, readLines_succ hline, ih]
    rfl

/-- What may stand without an end is read after that, and then there is nothing. -/
theorem readLines_last {last : Option LineContent} (h : ∀ content ∈ last, content.bytes ≠ [])
    (output : Output) (more : Nat) :
    readLines (last.toList.length + more)
        ⟨.ofBytes (last.toList.flatMap LineContent.bytes), output⟩ =
      (last.toList.map LineContent.answer ++ List.replicate more (.ok none),
        ⟨.ofBytes [], output⟩) := by
  cases last with
  | none =>
    show readLines (0 + more) ⟨.ofBytes [], output⟩ = _
    rw [Nat.zero_add, readLines_over]
    rfl
  | some content =>
    have hlast := attempt_readLine (content.readLine_bytes (h content rfl)) output
    have hbytes : (some content).toList.flatMap LineContent.bytes = content.bytes := List.append_nil _
    rw [hbytes, Nat.add_comm]
    show readLines (more + 1) _ = _
    rw [readLines_succ hlast, readLines_over]
    rfl

end Console

/-! ## Every input is made of lines -/

/-- Bytes without a line end are a line, as a text or as no text. -/
theorem LineContent.exists_bytes_eq {bytes : List UInt8} (h : Input.newline ∉ bytes) :
    ∃ content : LineContent, content.bytes = bytes := by
  by_cases htext : ∃ text, bytesOf text = bytes
  · obtain ⟨text, rfl⟩ := htext
    refine ⟨.text text fun hmem => h ?_, rfl⟩
    rw [bytesOf_eq_flatMap]
    exact List.mem_flatMap.mpr ⟨'\n', hmem, List.mem_singleton.mpr rfl⟩
  · exact ⟨.garbled bytes h fun text htext' => htext ⟨text, htext'⟩, rfl⟩

/-- The carriage return at the end of a text can be counted to its line end. -/
theorem LineContent.EndsInReturn.exists_shorter {content : LineContent} (h : content.EndsInReturn) :
    ∃ shorter : LineContent, content.bytes = shorter.bytes ++ [Input.carriageReturn] := by
  cases content with
  | garbled bytes unbroken invalid => exact h.elim
  | text content unbroken =>
    obtain ⟨shorter, rfl⟩ := Input.exists_eq_append_return h
    have hshorter : '\n' ∉ shorter.toList := by
      rw [String.toList_append] at unbroken
      exact mt (List.mem_append_left _) unbroken
    exact ⟨.text shorter hshorter, bytesOf_append shorter "\r"⟩

/-- With a line end behind them, they are a line that is ended. -/
theorem EndedLine.exists_bytes_eq {bytes : List UInt8} (h : Input.newline ∉ bytes) :
    ∃ line : EndedLine, line.bytes = bytes ++ [Input.newline] := by
  obtain ⟨content, rfl⟩ := LineContent.exists_bytes_eq h
  by_cases hreturn : content.EndsInReturn
  · obtain ⟨shorter, hshorter⟩ := hreturn.exists_shorter
    refine ⟨⟨shorter, .returnNewline, nofun⟩, ?_⟩
    rw [hshorter, List.append_assoc]
    rfl
  · exact ⟨⟨content, .newline, fun _ => hreturn⟩, rfl⟩

namespace WrittenLines

/-- Any bytes at all are some ended lines and a tail. -/
theorem exists_bytes_eq (bytes : List UInt8) : ∃ lines : WrittenLines, lines.bytes = bytes := by
  induction hsize : bytes.length using Nat.strong_induction_on generalizing bytes with
  | _ size ih =>
    by_cases hended : Input.newline ∈ bytes
    · obtain ⟨front, back, rfl, hfront⟩ := List.eq_append_cons_of_mem hended
      obtain ⟨line, hline⟩ := EndedLine.exists_bytes_eq hfront
      have hshorter : back.length < size := by
        rw [← hsize, List.length_append, List.length_cons]
        omega
      obtain ⟨lines, rfl⟩ := ih back.length hshorter back rfl
      refine ⟨⟨line :: lines.ended, lines.last, lines.last_nonempty⟩, ?_⟩
      rw [WrittenLines.bytes, List.flatMap_cons, hline]
      simp [WrittenLines.bytes]
    · obtain ⟨content, rfl⟩ := LineContent.exists_bytes_eq hended
      by_cases hempty : content.bytes = []
      · exact ⟨⟨[], none, nofun⟩, hempty.symm⟩
      · refine ⟨⟨[], some content, ?_⟩, List.append_nil _⟩
        rintro _ ⟨⟩
        exact hempty

end WrittenLines

/-- **Reading line by line gives the lines in turn, and nothing else.** Of lines with their ends, each
written with or without a carriage return, and perhaps a last one without an end, as many attempts give
what stands on them in order: a text as it stands, and a failure for a line that is no text and for no
other. Every further attempt finds nothing. All bytes are such lines. -/
theorem lines_read_in_turn :
    (∀ (lines : WrittenLines) (output : Output) (more : Nat),
      Console.readLines (lines.contents.length + more) ⟨.ofBytes lines.bytes, output⟩ =
        (lines.contents.map LineContent.answer ++ List.replicate more (.ok none),
          ⟨.ofBytes [], output⟩)) ∧
    ∀ bytes : List UInt8, ∃ lines : WrittenLines, lines.bytes = bytes := by
  refine ⟨?_, WrittenLines.exists_bytes_eq⟩
  intro lines output more
  have hcount : lines.contents.length + more =
      lines.ended.length + (lines.last.toList.length + more) := by
    rw [WrittenLines.contents, List.length_append, List.length_map, Nat.add_assoc]
  rw [hcount, WrittenLines.bytes, Console.readLines_ended,
    Console.readLines_last lines.last_nonempty]
  simp [WrittenLines.contents]

-- The line that is no text is passed over, and a carriage return at the end of the input is kept.
example : (Console.readLines 4 ⟨.ofBytes [97, 13, 10, 255, 10, 98, 13], .empty⟩).1 =
    [.ok (some "a"), .error (.failed .invalidText), .ok (some "b\r"), .ok none] := rfl

end Parlance
