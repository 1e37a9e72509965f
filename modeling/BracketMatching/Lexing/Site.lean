/-
Sites: what kind of place an offset is, judged from an earlier offset.

`Text.siteAt` reads from `start`, taken to be code, up to an offset and says
where that leaves it.  Block comments are not resolved across the start: one
that is open at the offset, and one whose end is met in code (so that it was
opened before the start), both make the site `Site.blockComment`.

* `Site.ofContext` — the site of a context in which a run arrives;
* `Text.closesBlockAt` — the two characters that end a block comment.

Design note: a reading may stop one character behind the offset, when the last
step consumed two; the site is then that of the context behind the step.
-/
import BracketMatching.Lexing.Run

namespace BracketMatching

/-- What kind of place an offset is. -/
inductive Site
  /-- Outside of literals and comments. -/
  | code
  /-- In a string or a character literal, in the given context. -/
  | literal (ctx : Context)
  /-- In a line comment. -/
  | lineComment
  /-- In a block comment, or behind the end of one that began before the
  reading did. -/
  | blockComment
  deriving DecidableEq, Repr

/-- The kind of place that a context belongs to.  A block comment decides before
a line comment, and a comment before a literal. -/
def Site.ofContext (ctx : Context) : Site :=
  if ctx.blockComment then .blockComment
  else if ctx.lineComment then .lineComment
  else if ctx.inLiteral then .literal ctx
  else .code

namespace Text

/-- Whether the end of a block comment, a star and a slash, stands at `offset`. -/
def closesBlockAt (t : Text) (offset : Nat) : Bool :=
  t.glyph? offset = some .star ∧ t.glyph? (offset + 1) = some .slash

/-- The reading of `siteAt`, in context `ctx` at `i`. -/
def siteFrom (t : Text) (offset : Nat) (ctx : Context) (i : Nat) : Except Fault Site :=
  if i < offset then
    if ctx.isCode && t.closesBlockAt i then .ok .blockComment
    else do
      let s ← t.step ctx i
      t.siteFrom offset s.next (i + s.consumed)
  else .ok (.ofContext ctx)
  termination_by offset - i
  decreasing_by
    have := s.consumed_pos
    omega

/-- What kind of place `offset` is, judged by a reading that starts as code at
`start`.  The reading breaks off if it runs out of text before `offset`. -/
def siteAt (t : Text) (start offset : Nat) : Except Fault Site :=
  t.siteFrom offset .code start

end Text

end BracketMatching
