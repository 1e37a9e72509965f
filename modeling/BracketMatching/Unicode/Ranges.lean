/-
Character classes, given as lists of code point ranges.

A range holds its first and its last code point.  The tables of the sibling
modules list theirs in increasing order and with gaps between them, so each
class has one spelling as a list.
-/
namespace BracketMatching.Unicode

/-- Whether the code point of `c` lies in one of the ranges. -/
def inRanges (ranges : List (Nat × Nat)) (c : Char) : Bool :=
  ranges.any fun r => decide (r.1 ≤ c.toNat) && decide (c.toNat ≤ r.2)

end BracketMatching.Unicode
