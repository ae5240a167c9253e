/-!
# Texts by bytes

A character takes one to four bytes in UTF-8, so an offset into the bytes of a text may fall inside
a character. A part of a text is given by two offsets, and there is none where an offset is no
boundary of a character, lies behind the text, or the two are in the wrong order.
-/

namespace Parlance.Text

/-- How many bytes characters take. -/
def byteLength : List Char → Nat
  | [] => 0
  | c :: cs => c.utf8Size + byteLength cs

/-- The characters behind the first `size` bytes. -/
def dropBytes? : List Char → Nat → Option (List Char)
  | [], size => if size = 0 then some [] else none
  | c :: cs, size =>
    if size = 0 then some (c :: cs)
    else if c.utf8Size ≤ size then dropBytes? cs (size - c.utf8Size)
    else none

/-- The characters of the first `size` bytes. -/
def takeBytes? : List Char → Nat → Option (List Char)
  | [], size => if size = 0 then some [] else none
  | c :: cs, size =>
    if size = 0 then some []
    else if c.utf8Size ≤ size then (takeBytes? cs (size - c.utf8Size)).map (c :: ·)
    else none

/-- The characters from one offset to another. -/
def slice? (cs : List Char) (start stop : Nat) : Option (List Char) :=
  if start ≤ stop then (dropBytes? cs start).bind (takeBytes? · (stop - start)) else none

@[simp] theorem byteLength_nil : byteLength [] = 0 := rfl

@[simp] theorem byteLength_cons (c : Char) (cs : List Char) :
    byteLength (c :: cs) = c.utf8Size + byteLength cs := rfl

/-- Lengths in bytes add up. -/
@[simp] theorem byteLength_append (cs ds : List Char) :
    byteLength (cs ++ ds) = byteLength cs + byteLength ds := by
  induction cs with
  | nil => simp
  | cons c cs ih => simp [ih, Nat.add_assoc]

/-- Every character takes at least one byte. -/
theorem byteLength_cons_ne_zero (c : Char) (cs : List Char) : byteLength (c :: cs) ≠ 0 := by
  have hsize := c.utf8Size_pos
  rw [byteLength_cons]
  omega

/-- Dropping as many bytes as a front has leaves the rest. -/
theorem dropBytes?_append (front rest : List Char) :
    dropBytes? (front ++ rest) (byteLength front) = some rest := by
  induction front with
  | nil => cases rest <;> rfl
  | cons c front ih =>
    rw [List.cons_append, dropBytes?, if_neg (byteLength_cons_ne_zero c front), byteLength_cons,
      if_pos (Nat.le_add_right _ _), Nat.add_sub_cancel_left, ih]

/-- Taking as many bytes as a front has gives the front. -/
theorem takeBytes?_append (front rest : List Char) :
    takeBytes? (front ++ rest) (byteLength front) = some front := by
  induction front with
  | nil => cases rest <;> rfl
  | cons c front ih =>
    rw [List.cons_append, takeBytes?, if_neg (byteLength_cons_ne_zero c front), byteLength_cons,
      if_pos (Nat.le_add_right _ _), Nat.add_sub_cancel_left, ih, Option.map_some]

/-- Between whole characters lies what stands between them. -/
theorem slice?_append (front inner rest : List Char) :
    slice? (front ++ inner ++ rest) (byteLength front) (byteLength (front ++ inner)) =
      some inner := by
  rw [slice?, if_pos (by simp), List.append_assoc, dropBytes?_append, Option.bind_some,
    byteLength_append, Nat.add_sub_cancel_left, takeBytes?_append]

end Parlance.Text
