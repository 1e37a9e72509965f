/-
Glances: looking for a partner without reading contexts.

Most partners have no quote and no comment between them.  A glance counts
brackets only, and gives up as soon as it meets a mark — a quote or a comment
marker — since behind one a bracket may not be what it seems:

* `Text.glanceForward` — from just after an opener towards its closer;
* `Text.glanceBackward` — from just before a closer towards its opener.

Design notes: going backward, a mark is met only after the brackets it hides.
So a glance that crosses a line feed first checks the whole line that it ends,
and on the line where it started it checks each character together with the one
before it, in case the two make a comment marker.  Marks outside of the two
brackets are not looked for: two brackets with nothing but plain text between
them are partners at a glance wherever they stand.
-/
import BracketMatching.Bracket.Basic
import BracketMatching.Lexing.Run
import BracketMatching.Scan.Depth
import BracketMatching.Text.Line

namespace BracketMatching

/-- What a glance says. -/
inductive Glance
  /-- The partner is at this offset. -/
  | hit (offset : Nat)
  /-- The text ends without a partner and without a mark: there is none. -/
  | absent
  /-- A mark was met. -/
  | undecided
  deriving DecidableEq, Repr

namespace Text

/-- Whether a quote or a comment marker starts at `offset`, which has to lie
inside the text. -/
def marksAt (t : Text) (offset : Nat) : Except Fault Bool := do
  let c ← t.read offset
  return (Glyph.ofChar c).startsMark (t.glyph? (offset + 1))

/-- Whether a quote or a comment marker starts at one of `count` offsets from
`first` on. -/
def marksWithin (t : Text) (first : Nat) : (count : Nat) → Except Fault Bool
  | 0 => .ok false
  | count + 1 => do
    if ← t.marksAt first then return true
    else t.marksWithin (first + 1) count

/-- Whether the character at `offset` takes part in a mark that starts there or
just before it. -/
def marksAround (t : Text) : (offset : Nat) → Except Fault Bool
  | 0 => t.marksAt 0
  | i + 1 => do
    if ← t.marksAt (i + 1) then return true
    else t.marksAt i

/-! ### Forward -/

/-- The glance at `i`, where `depth` brackets are open. -/
def glanceForwardFrom (t : Text) (b : Bracket) (depth i : Nat) : Except Fault Glance :=
  if i < t.size then do
    let c ← t.read i
    if c = b.opener then t.glanceForwardFrom b (depth + 1) (i + 1)
    else if c = b.closer then do
      let depth ← lower depth
      if depth = 0 then return .hit i
      else t.glanceForwardFrom b depth (i + 1)
    else if ← t.marksAt i then return .undecided
    else t.glanceForwardFrom b depth (i + 1)
  else .ok .absent
  termination_by t.size - i

/-- The closer of an opener just before `start`, at a glance. -/
def glanceForward (t : Text) (b : Bracket) (start : Nat) : Except Fault Glance :=
  t.glanceForwardFrom b 1 start

/-! ### Backward -/

/-- The glance at the characters below offset `n`, where `pending` closers wait
for their openers. -/
def glanceBelow (t : Text) (b : Bracket) (pending : Nat) : (n : Nat) → Except Fault Glance
  | 0 => .ok .absent
  | i + 1 => do
    let c ← t.read i
    if c = b.closer then t.glanceBelow b (pending + 1) i
    else if c = b.opener then do
      let pending ← lower pending
      if pending = 0 then return .hit i
      else t.glanceBelow b pending i
    else if c = '\n' then do
      -- A mark on the line above would hide the brackets behind it.
      let lineStart := t.lineStart i
      if ← t.marksWithin lineStart (i - lineStart) then return .undecided
      else t.glanceBelow b pending i
    else if ← t.marksAround i then return .undecided
    else t.glanceBelow b pending i

/-- The opener of a closer just after `start`, at a glance. -/
def glanceBackward (t : Text) (b : Bracket) (start : Nat) : Except Fault Glance :=
  if start < t.size then t.glanceBelow b 1 (start + 1) else .ok .absent

end Text

end BracketMatching
