/-
Windows: finding an opener by reading forward to its closer.

Contexts can be read from left to right only.  So a backward scan chooses a
line start, reads from there to the closer as if the line began in code, and
keeps the offsets of the openers still open on a stack; what is on top when the
closer is reached is its partner.  That the line begins in code is an
assumption, and the reading watches for signs that it is wrong:

* `Verdict.falseStart` — the end of a block comment in code, or a string or
  character literal cut off by a line break, says that the window began inside
  of something;
* `Verdict.outOfContext` — the closer itself turns out not to be in the region.

Design notes: at the start of the text the assumption cannot be wrong.  There a
literal cut off by a line break is ordinary text, and a stray block comment end
puts the closer out of context.  In a literal the stack is emptied whenever a
literal opens, so that only the openers of the closer's own literal remain.
-/
import BracketMatching.Bracket.Basic
import BracketMatching.Scan.Region

namespace BracketMatching

/-- What reading a window says about the closer behind it. -/
inductive Verdict
  /-- Its opener is at this offset. -/
  | opener (offset : Nat)
  /-- No opener in the window is left open. -/
  | noOpener
  /-- It is not in the region. -/
  | outOfContext
  /-- Nothing: the window does not start in code. -/
  | falseStart
  deriving DecidableEq, Repr

/-- Whether a line break in this context cuts off a literal that does not span
lines. -/
def Context.cutByLineBreak (ctx : Context) : Bool :=
  ctx.char || (ctx.string && !ctx.verbatim)

namespace Text

/-- The reading at `i` in context `ctx`, with the openers on `stack` still open,
up to and including the offset `last`. -/
def readWindowFrom (t : Text) (b : Bracket) (region : Region) (windowStart last : Nat)
    (stack : List Nat) (ctx : Context) (i : Nat) : Except Fault Verdict :=
  if i ≤ last then do
    let c ← t.read i
    if b.has c && region.admits ctx then
      -- A closer without an opener in the window leaves the stack empty.
      let stack := if c = b.opener then i :: stack else stack.tail
      t.readWindowFrom b region windowStart last stack ctx (i + 1)
    else if ctx.isCode && t.closesBlockAt i then
      return if windowStart = 0 then .outOfContext else .falseStart
    else do
      let s ← t.step ctx i
      if (Glyph.ofChar c).isLineBreak && ctx.cutByLineBreak && windowStart != 0 then
        return .falseStart
      else
        let opens := region = .literal ∧ s.next.inLiteral = true ∧ ctx.inLiteral = false
        let stack := if opens then [] else stack
        t.readWindowFrom b region windowStart last stack s.next (i + s.consumed)
  -- Past the closer, the last step swallowed it in an escape or a marker.
  else if last + 1 < i || !region.admits ctx then .ok .outOfContext
  else
    match stack with
    | offset :: _ => .ok (.opener offset)
    | [] => .ok .noOpener
  termination_by last + 1 - i
  decreasing_by
    · omega
    · have := s.consumed_pos
      omega

/-- The reading of the window from `windowStart`, taken to be code, for the
opener of a closer just after `last`.  It breaks off if the text ends first. -/
def readWindow (t : Text) (b : Bracket) (region : Region) (windowStart last : Nat) :
    Except Fault Verdict :=
  t.readWindowFrom b region windowStart last [] .code windowStart

end Text

end BracketMatching
