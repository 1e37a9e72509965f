/-
Spotlights: the highlighted match, kept up to date with the caret.

A spotlight remembers for which caret and which version of the document it last
looked, and does not look again while both stay the same; the host promises a
new version whenever the text changes.

* `Spotlight.refresh` — look at the caret, unless that was done already;
* `Spotlight.withStyle` — paint what is found from now on in another style;
* `Spotlight.forget` — drop what was found, so that the next look is a fresh one.

Design note: what is shown was painted when it was found.  A change of style
leaves it as it is and is seen with the next fresh look.
-/
import BracketMatching.Match

namespace BracketMatching

/-- The name of a style, which a theme turns into colours. -/
abbrev Style := UInt32

/-- The style of matched brackets where none is chosen. -/
def Style.matchedBrackets : Style := 0x03000001

/-- The characters to paint for a match, and in which style. -/
structure Highlight where
  opening : Extent
  closing : Extent
  style : Style
  deriving DecidableEq, Repr

/-- The highlight that paints both brackets of a match. -/
def Match.highlight (found : Match) (style : Style) : Highlight where
  opening := found.opening.extent
  closing := found.closing.extent
  style := style

/-- The place and time of a look: the caret, and the version of the document. -/
structure Glimpse where
  caret : Nat
  version : Nat
  deriving DecidableEq, Repr

/-- The highlighted match and what it was found for. -/
structure Spotlight where
  /-- The brackets that are matched. -/
  table : BracketTable := .standard
  /-- The style of what is found from now on. -/
  style : Style := .matchedBrackets
  /-- The last look, unless it was forgotten. -/
  seen : Option Glimpse := none
  /-- What the last look found. -/
  shown : Option Highlight := none
  deriving DecidableEq

namespace Spotlight

/-- A spotlight that has not looked anywhere yet. -/
def ofTable (table : BracketTable) : Spotlight where
  table := table

/-- The same spotlight, painting in `style` from the next fresh look on. -/
def withStyle (spotlight : Spotlight) (style : Style) : Spotlight :=
  { spotlight with style := style }

/-- The spotlight with nothing seen and nothing shown. -/
def forget (spotlight : Spotlight) : Spotlight :=
  { spotlight with seen := none, shown := none }

/-- The spotlight after a look at the bracket before `caret`, in this version of
the document.  A repeated look changes nothing. -/
def refresh (spotlight : Spotlight) (t : Text) (caret version : Nat) :
    Except Fault Spotlight := do
  let glimpse : Glimpse := ⟨caret, version⟩
  if spotlight.seen = some glimpse then return spotlight
  else
    let found := (← spotlight.table.matchBefore t caret).result
    return { spotlight with
      seen := some glimpse
      shown := found.map (·.highlight spotlight.style) }

end Spotlight

end BracketMatching
