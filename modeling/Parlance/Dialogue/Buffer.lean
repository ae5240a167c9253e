import Parlance.Text.Blank

/-!
# Collecting lines into submissions

Lines typed one at a time are collected until they look complete: as many braces are closed as
opened, and the last line ends a statement or a block. Then they are submitted together. Lines that
close more braces than are open are thrown away, and blank lines before a submission are skipped.

The depth is counted character by character: a brace in a text literal or a comment counts too.
-/

namespace Parlance.Dialogue

open Text

/-- The lines collected so far. -/
structure Buffer where
  /-- The lines, each with its end. -/
  text : String
  /-- How many more braces they open than close. -/
  depth : Int
deriving DecidableEq, Repr

/-- What a line does to the lines collected before it. -/
inductive Submission where
  /-- More lines are needed. -/
  | pending
  /-- More braces are closed than were opened; the lines are thrown away. -/
  | unbalanced
  /-- The lines are complete. -/
  | ready (source : String)
deriving DecidableEq, Repr

/-- The depth behind a character. -/
def nest (depth : Int) : Char → Int
  | '\x7b' => depth + 1
  | '\x7d' => depth - 1
  | _ => depth

/-- Whether a line can be the last one of a submission. -/
def endsStatement (line : String) : Bool :=
  let last := (trimEnd line.toList).getLast?
  last == some ';' || last == some '\x7d'

/-- Whether a line asks to leave. -/
def isQuit (line : String) : Bool :=
  let word := String.ofList ((trim line.toList).map Char.toLower)
  word == ":quit" || word == "exit"

namespace Buffer

/-- The buffer without lines. -/
def empty : Buffer := ⟨"", 0⟩

/-- Whether nothing but blanks is collected. -/
def isBlank (buffer : Buffer) : Bool :=
  allBlank buffer.text.toList

/-- What the user is prompted with before the next line. -/
def prompt (buffer : Buffer) : String :=
  if buffer.isBlank then "msharp> " else "...    "

/-- Adds a line to the lines collected so far. -/
def push (buffer : Buffer) (line : String) : Submission × Buffer :=
  if buffer.isBlank && allBlank line.toList then (.pending, { buffer with text := "" })
  else
    let text := buffer.text ++ line ++ "\n"
    let depth := line.toList.foldl nest buffer.depth
    if depth < 0 then (.unbalanced, empty)
    else if depth = 0 ∧ endsStatement line then (.ready text, empty)
    else (.pending, ⟨text, depth⟩)

end Buffer

end Parlance.Dialogue
