/-!
# Places in a source text

A place is a line and a column, both counted from one; a column counts characters, whatever their
width in bytes. A fault is reported together with its place, and every report ends in the same
words, so that the wording of a kind of fault says only what went wrong.
-/

namespace Parlance

/-- A place in a source text. -/
structure Position where
  /-- The line, the first being 1. -/
  line : Nat
  /-- The column, the first of a line being 1. -/
  column : Nat
deriving DecidableEq, Repr

namespace Position

/-- The place of the first character of a text. -/
def start : Position := ⟨1, 1⟩

/-- The place behind one character: only a newline begins a new line. -/
def next (position : Position) (c : Char) : Position :=
  if c = '\n' then ⟨position.line + 1, 1⟩ else ⟨position.line, position.column + 1⟩

/-- The place behind a run of characters. -/
def after (position : Position) (cs : List Char) : Position :=
  cs.foldl next position

/-- A place as the end of a report. -/
def suffix (position : Position) : String :=
  " (line " ++ toString position.line ++ ", col " ++ toString position.column ++ ")"

@[simp] theorem after_nil (position : Position) : position.after [] = position := rfl

@[simp] theorem after_cons (position : Position) (c : Char) (cs : List Char) :
    position.after (c :: cs) = (position.next c).after cs := rfl

/-- The place behind two texts is reached one text after the other. -/
@[simp] theorem after_append (position : Position) (cs ds : List Char) :
    position.after (cs ++ ds) = (position.after cs).after ds :=
  List.foldl_append

end Position

/-- A fault together with the place where it was found. -/
structure Located (Fault : Type) where
  /-- What went wrong. -/
  fault : Fault
  /-- Where it went wrong. -/
  position : Position
deriving DecidableEq, Repr

/-- The report of a fault: its wording, then its place. -/
def Located.report {Fault : Type} (wording : Fault → String) (error : Located Fault) : String :=
  wording error.fault ++ error.position.suffix

end Parlance
