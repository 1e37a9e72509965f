/-
The backward scan: reading windows on the way to an opener.

The scan finds out what kind of place the closer stands in by reading its line.
In a literal that line is the only window.  In code the windows widen: while a
window holds no opener, or proves not to start in code, the next one starts
further up, by one line, then two more, then four, and so on, until one starts
at the beginning of the text.

* `Text.openerBefore` — the offset of the opener, if there is one;
* `Text.openerBefore_of_siteAt` — how it is found, for a closer in the text.

Design notes: the window start is its own measure.  Every widening starts
strictly further up, so there is no need to count the rounds.  And the closer is
told by the offset before it, which makes this the one scan that adds to an
offset before it has looked whether the text reaches that far: from the last
word of the machine it wraps around (`Text.nextOffset`).
-/
import BracketMatching.Scan.Trace
import BracketMatching.Scan.Window
import BracketMatching.Text.Line

namespace BracketMatching

namespace Text

/-- The start of the next window after `round` earlier widenings: `2 ^ round`
lines above the present one, or the beginning of the text if there are fewer. -/
def widerStart (t : Text) (round windowStart : Nat) : Nat :=
  t.lineStartAbove windowStart (Nat.pow 2 round)

theorem widerStart_lt (t : Text) (round : Nat) {windowStart : Nat} (h : windowStart ≠ 0) :
    t.widerStart round windowStart < windowStart :=
  t.lineStartAbove_lt h (Nat.ne_of_gt (Nat.two_pow_pos round))

/-- The openers of code, sought in windows from `windowStart` upwards, after
`round` earlier widenings. -/
def openerWidening (t : Text) (b : Bracket) (last round windowStart : Nat) :
    Except Fault (Traced (Option Nat)) := do
  match ← t.readWindow b .code windowStart last with
  | .opener offset => return .quiet (some offset)
  | .outOfContext => return (Traced.quiet none).after (.outOfContext windowStart last)
  | .noOpener | .falseStart =>
    if h : windowStart = 0 then return .quiet none
    else
      -- A window that proved nothing is never trusted; a wider one may decide.
      let wider := t.widerStart round windowStart
      return (← t.openerWidening b last (round + 1) wider).after (.widened wider last)
  termination_by windowStart
  decreasing_by exact t.widerStart_lt round h

/-- The offset just after `offset`, as a word of the machine: behind the last word
comes zero.  No text is so long that this could happen inside of it. -/
def nextOffset (t : Text) (offset : Nat) : Nat :=
  if offset < t.size then offset + 1 else (offset + 1) % UInt64.size

theorem nextOffset_eq {t : Text} {i : Nat} (h : i < t.size ∨ i + 1 < UInt64.size) :
    t.nextOffset i = i + 1 := by
  unfold nextOffset
  split
  · rfl
  · next hge => exact Nat.mod_eq_of_lt (h.resolve_left hge)

/-- The opener of a closer just after `last`. -/
def openerBefore (t : Text) (b : Bracket) (last : Nat) :
    Except Fault (Traced (Option Nat)) :=
  let closer := t.nextOffset last
  if closer < t.size then do
    let windowStart := t.lineStart closer
    let site ← t.siteAt windowStart closer
    match site.region? with
    | some (.code, _) => t.openerWidening b last 0 windowStart
    | some (.literal, _) =>
      match ← t.readWindow b .literal windowStart last with
      | .opener offset => return .quiet (some offset)
      | .noOpener | .outOfContext | .falseStart => return .quiet none
    | none => return (Traced.quiet none).after (.backwardInComment last site)
  else .ok (.quiet none)

/-- What the closer stands in, seen from its line, tells where its opener is sought. -/
theorem openerBefore_of_siteAt {t : Text} {b : Bracket} {last : Nat} {site : Site}
    (h : last + 1 < t.size)
    (hsite : t.siteAt (t.lineStart (last + 1)) (last + 1) = .ok site) :
    t.openerBefore b last =
      match site.region? with
      | some (.code, _) => t.openerWidening b last 0 (t.lineStart (last + 1))
      | some (.literal, _) => do
        match ← t.readWindow b .literal (t.lineStart (last + 1)) last with
        | .opener offset => return .quiet (some offset)
        | .noOpener | .outOfContext | .falseStart => return .quiet none
      | none => return (Traced.quiet none).after (.backwardInComment last site) := by
  simp only [openerBefore, nextOffset_eq (.inl (Nat.lt_of_succ_lt h)), if_pos h, hsite, bind,
    Except.bind]

/-- Behind the last character there is no closer. -/
theorem openerBefore_of_size_le {t : Text} {b : Bracket} {last : Nat} (h : t.size ≤ last + 1)
    (hnext : last < t.size ∨ last + 1 < UInt64.size) :
    t.openerBefore b last = .ok (.quiet none) := by
  simp only [openerBefore, nextOffset_eq hnext, if_neg (Nat.not_lt.mpr h)]

end Text

end BracketMatching
