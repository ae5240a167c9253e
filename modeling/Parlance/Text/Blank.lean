/-!
# Blank characters

The blank characters are those with the Unicode property White_Space. They separate the words of a
program, they are trimmed from a line before it is read as a number, and they do not count when a
line is judged empty.
-/

namespace Parlance.Text

/-- Whether a character has the Unicode property White_Space. -/
def isBlank (c : Char) : Bool :=
  let code := c.toNat
  (9 ≤ code && code ≤ 13) || code == 0x20 || code == 0x85 || code == 0xA0 || code == 0x1680 ||
    (0x2000 ≤ code && code ≤ 0x200A) || code == 0x2028 || code == 0x2029 || code == 0x202F ||
    code == 0x205F || code == 0x3000

/-- A list of characters without the blanks at its end. -/
def trimEnd (cs : List Char) : List Char :=
  (cs.reverse.dropWhile isBlank).reverse

/-- A list of characters without the blanks at its two ends. -/
def trim (cs : List Char) : List Char :=
  trimEnd (cs.dropWhile isBlank)

/-- Whether there is nothing but blanks in a list of characters. -/
def allBlank (cs : List Char) : Bool :=
  cs.all isBlank

end Parlance.Text
