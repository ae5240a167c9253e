/-!
# Classes of characters as code ranges

A class of characters is a list of ascending, disjoint code ranges. A character is looked for from
the low end, and the search stops at the first range that begins beyond it, so common characters
are found early and the table of a large class costs them nothing.
-/

namespace Parlance.Text

/-- Whether a code point lies in one of the ranges `(first, last)`, which are ascending and hold
both their ends. -/
def inRanges : List (Nat × Nat) → Nat → Bool
  | [], _ => false
  | (first, last) :: ranges, code =>
    if code < first then false
    else if code ≤ last then true
    else inRanges ranges code

end Parlance.Text
