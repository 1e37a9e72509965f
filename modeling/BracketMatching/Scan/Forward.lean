/-
The forward scan: reading contexts on the way to a closer.

The scan finds out what kind of place it starts in by reading its line, and
then counts the brackets of that region.  A bracket that counts is not stepped
over by the lexing rules but passed as one character.  A scan that starts in a
literal finds nothing behind the literal's end.

* `Text.closerAfter` — the offset of the closer, if there is one.
-/
import BracketMatching.Bracket.Basic
import BracketMatching.Scan.Depth
import BracketMatching.Scan.Region
import BracketMatching.Scan.Trace
import BracketMatching.Text.Line

namespace BracketMatching

namespace Text

/-- The scan at `i` in context `ctx`, where `depth` brackets are open. -/
def closerFrom (t : Text) (b : Bracket) (region : Region) (depth : Nat) (ctx : Context)
    (i : Nat) : Except Fault (Option Nat) :=
  if i < t.size then do
    let c ← t.read i
    if b.has c && region.admits ctx then
      if c = b.opener then t.closerFrom b region (depth + 1) ctx (i + 1)
      else do
        let depth ← lower depth
        if depth = 0 then return some i
        else t.closerFrom b region depth ctx (i + 1)
    else do
      let s ← t.step ctx i
      if region = .literal ∧ s.next.inLiteral = false then return none
      else t.closerFrom b region depth s.next (i + s.consumed)
  else .ok none
  termination_by t.size - i
  decreasing_by
    · omega
    · omega
    · have := s.consumed_pos
      omega

/-- The closer of an opener just before `start`. -/
def closerAfter (t : Text) (b : Bracket) (start : Nat) :
    Except Fault (Traced (Option Nat)) :=
  if start < t.size then do
    let site ← t.siteAt (t.lineStart start) start
    match site.region? with
    | some (region, ctx) => return .quiet (← t.closerFrom b region 1 ctx start)
    | none => return (Traced.quiet none).after (.forwardInComment start site)
  else .ok (.quiet none)

end Text

end BracketMatching
