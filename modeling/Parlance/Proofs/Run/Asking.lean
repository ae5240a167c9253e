import Parlance.Proofs.Run.Reading

/-!
# Asking for a number

`readNumber` asks until a line is a number. Here the lines of the input are given first, as those of a
text (`Text.lines`), and what the method does follows from them: a line that is no number costs a prompt
and a notice and is gone (`askNumber_skips`), the first line that is one is taken and everything behind
it is left, and when no line is one the input is used up. How many rounds the method is given plays no
part in it, as soon as there are more rounds than lines.

A line is judged without the blanks around it. The end of a line is blank, so it makes no difference
whether a line is judged with its end or without (`Text.trim_append`).
-/

namespace Parlance

open Sequencing

/-! ## Blanks at the end -/

namespace Text

variable {blanks : List Char}

/-- Blanks at the end are dropped with those that stand before them. -/
theorem trimEnd_append (h : ∀ c ∈ blanks, isBlank c = true) (cs : List Char) :
    trimEnd (cs ++ blanks) = trimEnd cs := by
  have hreverse : ∀ c ∈ blanks.reverse, isBlank c = true := by simpa using h
  rw [trimEnd, List.reverse_append, List.dropWhile_append_of_pos hreverse, trimEnd]

/-- A text with blanks behind it is trimmed to the same. -/
theorem trim_append (h : ∀ c ∈ blanks, isBlank c = true) (cs : List Char) :
    trim (cs ++ blanks) = trim cs := by
  rw [trim, trim, List.dropWhile_append]
  split
  · rename_i hnil
    rw [List.isEmpty_iff.mp hnil, List.dropWhile_eq_nil_iff.mpr h]
  · exact trimEnd_append h _

end Text

/-- Every line end is made of blanks, also the missing one. -/
theorem Input.IsLineEnd.isBlank {ending : List Char} (h : IsLineEnd ending) :
    ∀ c ∈ ending, Text.isBlank c = true := by
  have hnewline : Text.isBlank '\n' = true := rfl
  have hreturn : Text.isBlank '\r' = true := rfl
  rcases h with rfl | rfl | rfl
  · exact nofun
  · simpa using hnewline
  · simpa using ⟨hreturn, hnewline⟩

namespace Method

open Run

/-! ## One round -/

/-- The number that stands on a line, between blanks. -/
def numberOn? (line : List Char) : Option Number :=
  Number.read? (String.ofList (Text.trim line))

variable {prompt line : String} {position : Position} {m : Machine} {input rest : Input}

/-- A prompt that cannot fail is all that is written, and no input is taken. -/
theorem prompt_of_unfailing (h : m.streams.output.Unfailing) (text : String) :
    console position (Console.prompt text) m = .ok () (m.advance m.streams.input text) := by
  rw [console, Console.prompt_of_unfailing h]
  rfl

/-- A notice that cannot fail is written with its end. -/
theorem writeLine_of_unfailing (h : m.streams.output.Unfailing) (text : String) :
    console position (Console.writeLine text) m =
      .ok () (m.advance m.streams.input (text ++ "\n")) := by
  rw [console, Console.writeLine_eq_write, Console.write_of_unlimited h.unlimited]
  rfl

/-- Behind a prompt, the line that is there is read. -/
theorem readLine_of_line (h : input.readLine = (.line line, rest)) (text : String) :
    console position Console.readLine (m.advance input text) =
      .ok (some line) (m.advance rest text) := by
  rw [console, Machine.advance, Console.readLine_of_line h]
  rfl

/-- Behind a prompt, the input may be over. -/
theorem readLine_of_over (h : input.readLine = (.over, rest)) (text : String) :
    console position Console.readLine (m.advance input text) = .ok none (m.advance rest text) := by
  rw [console, Machine.advance, Console.readLine_of_over h]
  rfl

/-- Where text is asked for, any line will do. -/
theorem askText_of_line (hopen : m.streams.output.Unfailing)
    (hread : m.streams.input.readLine = (.line line, rest)) :
    askText prompt position m = .ok line (m.advance rest prompt) := by
  rw [askText, bind_of_ok (prompt_of_unfailing hopen prompt), bind_of_ok (readLine_of_line hread _)]
  rfl

/-- Without a line, the input is exhausted. -/
theorem askNumber_of_over (hopen : m.streams.output.Unfailing)
    (hread : m.streams.input.readLine = (.over, rest)) (rounds : Nat) :
    askNumber prompt position (rounds + 1) m =
      .error (.failed ⟨.inputExhausted, position⟩) (m.advance rest prompt) := by
  rw [askNumber, bind_of_ok (prompt_of_unfailing hopen prompt), bind_of_ok (readLine_of_over hread _)]
  rfl

/-- What a line that is no number costs: the prompt, and the notice on the rest of its line. -/
def attempt (prompt : String) : String := prompt ++ (retryNotice ++ "\n")

/-- A line is a number and ends the asking, or it is not and the asking goes on behind it. -/
theorem askNumber_of_line (hopen : m.streams.output.Unfailing)
    (hread : m.streams.input.readLine = (.line line, rest)) (rounds : Nat) :
    askNumber prompt position (rounds + 1) m = match numberOn? line.toList with
      | some number => .ok number (m.advance rest prompt)
      | none => askNumber prompt position rounds (m.advance rest (attempt prompt)) := by
  rw [askNumber, bind_of_ok (prompt_of_unfailing hopen prompt), bind_of_ok (readLine_of_line hread _)]
  dsimp only
  rw [numberOn?]
  cases Number.read? (String.ofList (Text.trim line.toList)) with
  | some number => rfl
  | none =>
    have hopen' : (m.advance rest prompt).streams.output.Unfailing := hopen.append prompt
    dsimp only
    rw [bind_of_ok (writeLine_of_unfailing hopen' retryNotice), Machine.advance_advance]
    rfl

/-! ## Line after line -/

variable {text : String} {first : List Char} {refused others : List (List Char)}

/-- One round, on the input of a text that has a line. -/
theorem askNumber_of_lines (hopen : m.streams.output.Unfailing) (hinput : m.streams.input = .ofText text)
    (hlines : Text.lines text.toList = first :: others) :
    ∃ later : String, Text.lines later.toList = others ∧ ∀ rounds,
      askNumber prompt position (rounds + 1) m = match numberOn? first with
        | some number => .ok number (m.advance (.ofText later) prompt)
        | none => askNumber prompt position rounds (m.advance (.ofText later) (attempt prompt)) := by
  obtain ⟨read, ending, later, hread, hlater, hfirst, hending⟩ := Input.readLine_ofText_of_lines hlines
  have hnumber : numberOn? first = numberOn? read.toList := by
    rw [numberOn?, hfirst, Text.trim_append hending.isBlank, numberOn?]
  rw [← hinput] at hread
  refine ⟨later, hlater, fun rounds => ?_⟩
  rw [hnumber, askNumber_of_line hopen hread]

/-- What is written for so many lines that are no numbers. -/
def attempts (prompt : String) (count : Nat) : String :=
  String.join (List.replicate count (attempt prompt))

theorem attempts_succ (prompt : String) (count : Nat) :
    attempts prompt (count + 1) = attempt prompt ++ attempts prompt count := by
  rw [attempts, List.replicate_succ, String.join_cons, attempts]

/-- Lines that are no numbers are passed over, each in a round of its own. -/
theorem askNumber_skips (hopen : m.streams.output.Unfailing) (hinput : m.streams.input = .ofText text)
    (hlines : Text.lines text.toList = refused ++ others)
    (hrefused : ∀ line ∈ refused, numberOn? line = none) :
    ∃ later : String, Text.lines later.toList = others ∧ ∀ rounds,
      askNumber prompt position (refused.length + rounds) m = askNumber prompt position rounds
        (m.advance (.ofText later) (attempts prompt refused.length)) := by
  induction refused generalizing m text with
  | nil =>
    refine ⟨text, hlines, fun rounds => ?_⟩
    have hm : m.advance (.ofText text) (attempts prompt 0) = m := by
      rw [← hinput]
      exact m.advance_empty
    rw [List.length_nil, Nat.zero_add, hm]
  | cons line refused ih =>
    obtain ⟨hline, hrefused⟩ := List.forall_mem_cons.mp hrefused
    obtain ⟨between, hbetween, hround⟩ := askNumber_of_lines hopen hinput hlines
    have hopen' : (m.advance (.ofText between) (attempt prompt)).streams.output.Unfailing :=
      hopen.append (attempt prompt)
    obtain ⟨later, hlater, hrounds⟩ := ih hopen' rfl hbetween hrefused
    refine ⟨later, hlater, fun rounds => ?_⟩
    rw [List.length_cons, Nat.add_right_comm, hround, hline, attempts_succ, ← Machine.advance_advance]
    exact hrounds rounds

/-- A text is made up of its lines. -/
theorem eq_of_lines {later : String} (h : Text.lines later.toList = others) :
    later = String.ofList others.flatten := by
  rw [← h, Text.flatten_lines, String.ofList_toList]

/-- The first line that is a number is the last one that is taken. -/
theorem askNumber_eq_ok {number : Number} {rounds : Nat} (hopen : m.streams.output.Unfailing)
    (hinput : m.streams.input = .ofText text)
    (hlines : Text.lines text.toList = refused ++ first :: others)
    (hrefused : ∀ line ∈ refused, numberOn? line = none) (hfirst : numberOn? first = some number)
    (hrounds : refused.length < rounds) :
    askNumber prompt position rounds m = .ok number (m.advance
      (.ofText (String.ofList others.flatten)) (attempts prompt refused.length ++ prompt)) := by
  obtain ⟨more, rfl⟩ : ∃ more, rounds = refused.length + (more + 1) :=
    ⟨rounds - refused.length - 1, by omega⟩
  obtain ⟨between, hbetween, hskips⟩ := askNumber_skips hopen hinput hlines hrefused
  have hopen' : (m.advance (.ofText between)
      (attempts prompt refused.length)).streams.output.Unfailing := hopen.append _
  obtain ⟨later, hlater, hround⟩ := askNumber_of_lines hopen' rfl hbetween
  rw [hskips, hround, hfirst, eq_of_lines hlater, Machine.advance_advance]

/-- When no line is a number, the input is used up. -/
theorem askNumber_eq_error {rounds : Nat} (hopen : m.streams.output.Unfailing)
    (hinput : m.streams.input = .ofText text)
    (hrefused : ∀ line ∈ Text.lines text.toList, numberOn? line = none)
    (hrounds : (Text.lines text.toList).length < rounds) :
    askNumber prompt position rounds m = .error (.failed ⟨.inputExhausted, position⟩)
      (m.advance (.ofText "") (attempts prompt (Text.lines text.toList).length ++ prompt)) := by
  obtain ⟨more, rfl⟩ : ∃ more, rounds = (Text.lines text.toList).length + (more + 1) :=
    ⟨rounds - (Text.lines text.toList).length - 1, by omega⟩
  obtain ⟨later, hlater, hskips⟩ :=
    askNumber_skips hopen hinput (List.append_nil _).symm hrefused
  -- Behind the last line nothing is left, so one more prompt finds the end.
  obtain rfl := Input.eq_empty_of_lines hlater
  have hopen' : (m.advance (.ofText "")
      (attempts prompt (Text.lines text.toList).length)).streams.output.Unfailing := hopen.append _
  rw [hskips, askNumber_of_over hopen' rfl, Machine.advance_advance]
  rfl

/-- More rounds than there are lines are enough to ask for a number. -/
theorem askUntilRead_of_lines_lt {rounds : Nat} (hopen : m.streams.output.Unfailing)
    (hinput : m.streams.input = .ofText text) (hrounds : (Text.lines text.toList).length < rounds) :
    askUntilRead prompt position m = askNumber prompt position rounds m := by
  obtain ⟨many, hbytes, hmany⟩ :
      ∃ n, m.streams.input.unread.length < n ∧ (Text.lines text.toList).length < n :=
    ⟨_, Nat.lt_succ_of_le (Nat.le_max_left _ _), Nat.lt_succ_of_le (Nat.le_max_right _ _)⟩
  rw [askUntilRead_of_lt hbytes]
  -- The first line that is a number decides what comes of either number of rounds.
  cases hfound : (Text.lines text.toList).findSome? numberOn? with
  | none =>
    have hrefused := List.findSome?_eq_none_iff.mp hfound
    rw [askNumber_eq_error hopen hinput hrefused hmany, askNumber_eq_error hopen hinput hrefused hrounds]
  | some number =>
    obtain ⟨refused, first, others, hlines, hfirst, hrefused⟩ := List.findSome?_eq_some_iff.mp hfound
    have hbefore : refused.length < (Text.lines text.toList).length := by
      rw [hlines, List.length_append, List.length_cons]
      omega
    rw [askNumber_eq_ok hopen hinput hlines hrefused hfirst (hbefore.trans hmany),
      askNumber_eq_ok hopen hinput hlines hrefused hfirst (hbefore.trans hrounds)]

/-! ## The method -/

/-- With the right number of arguments, `readNumber` asks and gives the number it gets. -/
theorem apply_readNumber (prompt : String) (position : Position) (m : Machine) :
    readNumber.apply [.text prompt] position m =
      (askUntilRead prompt position >>= fun number => pure (.number number)) m := rfl

/-- **Asking for a number goes on until a line is one.** Let the input be a text, of which the last line
may have no end, and let the output take everything.

* If `line` is the first of the lines that is a number between blanks, `readNumber` gives this number. It
  leaves exactly the lines behind it, and it has written the prompt and the notice once for each line
  before it, and the prompt once more.
* If no line is a number, it fails at the place of the call. It leaves nothing, and it has written the
  prompt and the notice once for each line, and the prompt once more.
* It ends by itself: any number of rounds above the number of lines gives what it gives. -/
theorem readNumber_asks_until_number (prompt : String) (position : Position) (m : Machine)
    (text : String) (hinput : m.streams.input = .ofText text)
    (hopen : m.streams.output.Unfailing) :
    let lines := Text.lines text.toList
    (∀ (refused others : List (List Char)) (line : List Char) (number : Number),
      lines = refused ++ line :: others → (∀ earlier ∈ refused, numberOn? earlier = none) →
        numberOn? line = some number →
          readNumber.apply [.text prompt] position m = .ok (.number number)
            (m.advance (.ofText (String.ofList others.flatten))
              (attempts prompt refused.length ++ prompt))) ∧
    ((∀ line ∈ lines, numberOn? line = none) →
      readNumber.apply [.text prompt] position m = .error (.failed ⟨.inputExhausted, position⟩)
        (m.advance (.ofText "") (attempts prompt lines.length ++ prompt))) ∧
    ∀ rounds, lines.length < rounds →
      askNumber prompt position rounds m = askUntilRead prompt position m := by
  have hrounds : ∀ rounds, (Text.lines text.toList).length < rounds →
      askNumber prompt position rounds m = askUntilRead prompt position m :=
    fun _ h => (askUntilRead_of_lines_lt hopen hinput h).symm
  refine ⟨fun refused others line number hlines hrefused hline => ?_, fun hrefused => ?_, hrounds⟩
  · have hbefore : refused.length < (Text.lines text.toList).length + 1 := by
      rw [hlines, List.length_append]
      omega
    have hasked : askUntilRead prompt position m = .ok number _ :=
      (hrounds _ (Nat.lt_succ_self _)).symm.trans
        (askNumber_eq_ok hopen hinput hlines hrefused hline hbefore)
    rw [apply_readNumber, bind_of_ok hasked]
    rfl
  · rw [apply_readNumber, bind_eq_error, ← hrounds _ (Nat.lt_succ_self _)]
    exact .inl (askNumber_eq_error hopen hinput hrefused (Nat.lt_succ_self _))

/-- Two lines are refused, one of them empty, and the third is a number between blanks: the last line,
which has no end, is left. Where that line comes second, nothing is a number. -/
theorem readNumber_asks_past_refused_lines :
    let m : Machine := .fresh ⟨.ofText "x\r\n\n 7 \r\n1 2", .empty⟩
    let m' : Machine := .fresh ⟨.ofText "x\r\n1 2", .empty⟩
    (∃ number, Number.read? "7" = some number ∧
      readNumber.apply [.text "? "] .start m = .ok (.number number) (.fresh ⟨.ofText "1 2",
        Output.empty.append "? Invalid number. Try again.\n? Invalid number. Try again.\n? "⟩)) ∧
      readNumber.apply [.text "? "] .start m' = .error (.failed ⟨.inputExhausted, .start⟩)
        (.fresh ⟨.ofText "", Output.empty.append
          "? Invalid number. Try again.\n? Invalid number. Try again.\n? "⟩) := by
  have hlines : Text.lines "x\r\n\n 7 \r\n1 2".toList =
      [['x', '\r', '\n'], ['\n'], [' ', '7', ' ', '\r', '\n'], ['1', ' ', '2']] := by decide
  have hlines' : Text.lines "x\r\n1 2".toList = [['x', '\r', '\n'], ['1', ' ', '2']] := by decide
  obtain ⟨number, hnumber⟩ : ∃ number, Number.read? "7" = some number := ⟨_, rfl⟩
  have hline : numberOn? [' ', '7', ' ', '\r', '\n'] = some number := hnumber
  intro m m'
  obtain ⟨hfound, -, -⟩ := readNumber_asks_until_number "? " .start m _ rfl Output.unfailing_empty
  obtain ⟨-, hexhausted, -⟩ := readNumber_asks_until_number "? " .start m' _ rfl Output.unfailing_empty
  rw [hlines'] at hexhausted
  refine ⟨⟨number, hnumber, ?_⟩, ?_⟩
  · exact hfound [['x', '\r', '\n'], ['\n']] [['1', ' ', '2']] _ number hlines (by decide) hline
  · exact hexhausted (by decide)

end Method

end Parlance
