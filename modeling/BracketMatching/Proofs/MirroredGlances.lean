/-
Mirrored glances: the two directions hit each other's brackets.

A glance to the right finds the first closer of an opener, and a glance to the left the
last opener of a closer, which is the same pair (`Sides.isLeast_pairs_iff_isGreatest`).
Both give up at a mark between the two brackets.  The glance to the left looks further:
where it crosses a line feed, it looks over the whole line that ends there.  Of these
lines only the opener's own reaches out of the pair, so all that its looks add is a mark
before the opener on that line:

* `Text.cleanLines_iff` — what the looks over whole lines come to;
* `BracketTable.glanceBackward_hit_iff_glanceForward_hit` — **a hit to the left is a hit
  to the right**, and conversely, unless a line ends between the two brackets and has a
  mark before the opener.
-/
import BracketMatching.Proofs.BackwardSearch

namespace BracketMatching

namespace Text

variable {t : Text} {b : Bracket} {o k : Nat}

/-- Behind an opener without marks behind it, the lines that end are free of marks exactly
if none ends, or the opener's own line is free of marks before it. -/
theorem cleanLines_iff (hb : b.Usable) (ho : t[o]? = some b.opener) (hk : k ≤ t.size)
    (hm : t.Unmarked (o + 1) k) :
    t.CleanLines (o + 1) k ↔
      (∀ m, o < m → m < k → t[m]? ≠ some '\n') ∨ t.Unmarked (t.lineStart o) o := by
  constructor
  · intro hclean
    by_cases hfeed : ∃ m, o < m ∧ m < k ∧ t[m]? = some '\n'
    · have hall := unmarked_from_lineStart hk ho hb.opener_plain hm hclean hfeed
      obtain ⟨m, hom, hmk, -⟩ := hfeed
      exact .inr (hall.mono (le_refl _) (hom.trans hmk).le)
    · exact .inl fun m hom hmk hfeed' => hfeed ⟨m, hom, hmk, hfeed'⟩
  · rintro (hnone | hbefore) m hom hmk hfeed
    · exact absurd hfeed (hnone m hom hmk)
    · -- The line begins no earlier than the opener's, and the opener is no mark itself.
      have hstart : t.lineStart o ≤ t.lineStart m := t.lineStart_mono (Nat.le_of_succ_le hom)
      intro i hmi him
      rcases Nat.lt_trichotomy i o with hio | rfl | hoi
      · exact hbefore i (hstart.trans hmi) hio
      · exact marksAt_of_has hb ho (Bracket.has_iff.mpr (.inl rfl))
      · exact hm i hoi (him.trans hmk)

end Text

namespace BracketTable

variable {table : BracketTable} {t : Text} {b : Bracket} {o last : Nat}

/-- **The glances mirror each other.**  From a closer the glance hits an opener exactly if
from the opener the glance hits the closer, and no line ends between the two or the line
of the opener has no mark before it. -/
theorem glanceBackward_hit_iff_glanceForward_hit (hb : b ∈ table.brackets)
    (ho : t[o]? = some b.opener) (hc : t[last + 1]? = some b.closer) :
    t.glanceBackward b last = .ok (.hit o) ↔
      t.glanceForward b (o + 1) = .ok (.hit (last + 1)) ∧
        ((∀ m, o < m → m < last + 1 → t[m]? ≠ some '\n') ∨ t.Unmarked (t.lineStart o) o) := by
  have hu := usable_of_mem hb
  have hsize : last + 1 < t.size := Text.lt_size_of_getElem? hc
  have hopener : t.sides b o = some .forward := Text.sides_eq_forward.mpr ho
  have hcloser : t.sides b (last + 1) = some .backward := (Text.sides_eq_backward hu).mpr hc
  calc t.glanceBackward b last = .ok (.hit o)
    _ ↔ IsGreatest {o | (t.sides b).Pairs o (last + 1)} o ∧
          t.Unmarked (o + 1) (last + 1) ∧ t.CleanLines (o + 1) (last + 1) := by
        rw [Text.glanceBackward_eq_hit_iff hu (Nat.lt_of_succ_lt hsize),
          Sides.lastOpener_some_iff hcloser]
    _ ↔ (IsLeast {k | (t.sides b).Pairs o k} (last + 1) ∧ t.Unmarked (o + 1) (last + 1)) ∧
          ((∀ m, o < m → m < last + 1 → t[m]? ≠ some '\n') ∨ t.Unmarked (t.lineStart o) o) := by
        rw [Sides.isLeast_pairs_iff_isGreatest, and_assoc]
        exact and_congr_right' (and_congr_right (Text.cleanLines_iff hu ho hsize.le))
    _ ↔ _ := by
        rw [Text.glanceForward_eq_hit_iff hu, Sides.firstCloser_some_iff hopener]

/-- A call over three lines, with marks on the line above it and behind its closer. -/
def spreadCallText : Text := .ofString "// x\nf(a,\n  (b)\n) // )"

theorem glanceBackward_spreadCallText :
    (spreadCallText[6]? = some '(' ∧ spreadCallText[16]? = some ')') ∧
    spreadCallText[9]? = some '\n' ∧
    spreadCallText.glanceForward ⟨'(', ')'⟩ 7 = .ok (.hit 16) ∧
    spreadCallText.glanceBackward ⟨'(', ')'⟩ 15 = .ok (.hit 6) := by
  have ho : spreadCallText[6]? = some '(' := by decide +kernel
  have hc : spreadCallText[15 + 1]? = some ')' := by decide +kernel
  have hforward : spreadCallText.glanceForward ⟨'(', ')'⟩ 7 = .ok (.hit 16) := by decide +kernel
  have hline : spreadCallText.Unmarked (spreadCallText.lineStart 6) 6 := by
    intro i hi hio
    have hstart : spreadCallText.lineStart 6 = 5 := by decide +kernel
    obtain rfl : i = 5 := by omega
    decide +kernel
  have hb : ⟨'(', ')'⟩ ∈ standard.brackets := by decide
  refine ⟨⟨ho, hc⟩, by decide +kernel, hforward, ?_⟩
  exact (glanceBackward_hit_iff_glanceForward_hit hb ho hc).mpr ⟨hforward, .inr hline⟩

end BracketTable

end BracketMatching
