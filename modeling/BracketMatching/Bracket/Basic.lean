/-
Brackets: an opening character and the closing character that answers it.

Nothing is asked of the two characters here: they may be equal, and they may be
characters that the lexing rules react to.  It is the tables of
`BracketMatching.Bracket.Table` that admit only usable ones.
-/
namespace BracketMatching

/-- An opening character with its closing character. -/
structure Bracket where
  opener : Char
  closer : Char
  deriving DecidableEq, Repr

/-- On which side of a bracket character its partner lies. -/
inductive Direction
  /-- After it: the character opens. -/
  | forward
  /-- Before it: the character closes. -/
  | backward
  deriving DecidableEq, Repr

namespace Bracket

/-- Whether `c` is the opening or the closing character. -/
def has (b : Bracket) (c : Char) : Bool := c == b.opener || c == b.closer

@[simp] theorem has_iff {b : Bracket} {c : Char} :
    b.has c = true ↔ c = b.opener ∨ c = b.closer := by
  simp [has]

end Bracket

end BracketMatching
