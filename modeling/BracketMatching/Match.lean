/-
Matches: the two brackets that belong together at a caret.

The caret stands between characters, and `caret` is the number of characters
before it.  The bracket just before the caret, if there is one, has its partner
sought on the side that the table names: first at a glance, and by a scan that
reads contexts only if the glance is undecided.

* `BracketTable.matchBefore` — the match of the bracket before the caret, traced;
* `BracketTable.matchAt` — the same, by the offset of the bracket;
* `Text.partnerAfter`, `Text.partnerBefore` — glance and scan in one direction.
-/
import BracketMatching.Bracket.Table
import BracketMatching.Scan.Backward
import BracketMatching.Scan.Forward
import BracketMatching.Scan.Glance

namespace BracketMatching

/-- The characters at offsets `start`, …, `stop - 1`. -/
structure Extent where
  start : Nat
  stop : Nat
  deriving DecidableEq, Repr

/-- A piece of text, by its offset and its length. -/
structure Span where
  offset : Nat
  length : Nat
  deriving DecidableEq, Repr

/-- The characters of a span. -/
def Span.extent (span : Span) : Extent where
  start := span.offset
  stop := span.offset + span.length

/-- Two brackets that belong together. -/
structure Match where
  opening : Span
  closing : Span
  deriving DecidableEq, Repr

/-- The match of the brackets at two offsets, the smaller one opening. -/
def Match.ofOffsets (i j : Nat) : Match where
  opening := ⟨min i j, 1⟩
  closing := ⟨max i j, 1⟩

namespace Text

/-- The closer of the opener just before `start`. -/
def partnerAfter (t : Text) (b : Bracket) (start : Nat) :
    Except Fault (Traced (Option Nat)) := do
  match ← t.glanceForward b start with
  | .hit offset => return .quiet (some offset)
  | .absent => return .quiet none
  | .undecided => return (← t.closerAfter b start).after (.forwardUndecided start)

/-- The opener of the closer just after `last`. -/
def partnerBefore (t : Text) (b : Bracket) (last : Nat) :
    Except Fault (Traced (Option Nat)) := do
  match ← t.glanceBackward b last with
  | .hit offset => return .quiet (some offset)
  | .absent => return .quiet none
  | .undecided => return (← t.openerBefore b last).after (.backwardUndecided last)

end Text

namespace BracketTable

/-- The offset of the partner of the character at `offset`, if that is a bracket
of the table.  A closer at the very beginning has none. -/
def partnerOf (table : BracketTable) (t : Text) (offset : Nat) :
    Except Fault (Traced (Option Nat)) := do
  match table.lookup (← t.read offset) with
  | none => return .quiet none
  | some (.forward, b) => t.partnerAfter b (offset + 1)
  | some (.backward, b) =>
    match offset with
    | 0 => return .quiet none
    | last + 1 => t.partnerBefore b last

/-- The match of the bracket at `offset`; none if the text ends before it. -/
def matchAt (table : BracketTable) (t : Text) (offset : Nat) :
    Except Fault (Traced (Option Match)) :=
  if offset < t.size then do
    let partner ← table.partnerOf t offset
    return partner.map (·.map (Match.ofOffsets offset))
  else .ok (.quiet none)

/-- The match of the bracket just before the caret, if there is one. -/
def matchBefore (table : BracketTable) (t : Text) : (caret : Nat) →
    Except Fault (Traced (Option Match))
  | 0 => .ok ((Traced.quiet none).after (.search 0))
  | offset + 1 => do
    return (← table.matchAt t offset).after (.search (offset + 1))

end BracketTable

end BracketMatching
