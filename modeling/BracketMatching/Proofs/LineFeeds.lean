/-
Line feeds: how far apart two line starts are.

The lines between two line starts are counted by their line feeds, and a walk up is said
by that count: it leaves behind as many line feeds as it was asked for, or all that there
are.  Since no two line starts leave equally many behind, that says where it ends.

* `Text.lineFeeds` — the number of line feeds between two offsets;
* `Text.isGreatest_lineStart` — the start of a line is the greatest line start up to the
  offsets on it, and no line feed lies between (`Text.lineFeeds_lineStart`);
* `Text.lineFeeds_lineStartAbove` — **what a walk up leaves behind**;
* `Text.IsLineStart.le_of_lineFeeds_eq` — of the offsets that leave equally many line feeds
  behind, a line start is the least one;
* `Text.lineStartAbove_eq_iff` — so a walk up ends at the one line start with that count;
* `Text.isGreatest_lineStart_and_lineStartAbove_eq_iff` — **both locators are exact**, for
  all offsets, line starts and numbers of lines.
-/
import BracketMatching.Text.Line
import Mathlib.Order.Bounds.Basic

namespace BracketMatching

namespace Text

variable {t : Text} {i lo mid hi start r w : Nat}

/-- The number of line feeds at the offsets `lo`, …, `hi - 1`. -/
def lineFeeds (t : Text) (lo hi : Nat) : Nat := (t.slice lo hi).count '\n'

/-- Counts of neighbouring stretches add up. -/
theorem lineFeeds_add (hlo : lo ≤ mid) (hhi : mid ≤ hi) :
    t.lineFeeds lo mid + t.lineFeeds mid hi = t.lineFeeds lo hi := by
  rw [lineFeeds, lineFeeds, lineFeeds, slice, slice, slice, ← Array.count_append,
    Array.extract_append_extract, Nat.min_eq_left hlo, Nat.max_eq_right hhi]

theorem lineFeeds_eq_zero_iff :
    t.lineFeeds lo hi = 0 ↔ ∀ i, lo ≤ i → i < hi → t[i]? ≠ some '\n' := by
  rw [lineFeeds, slice, Array.count_eq_zero, Array.mem_extract_iff_getElem]
  constructor
  · intro h i hlo hhi hfeed
    obtain ⟨hlt, hfeed⟩ := Array.getElem?_eq_some_iff.mp hfeed
    refine h ⟨i - lo, by omega, ?_⟩
    simpa only [Nat.add_sub_cancel' hlo] using hfeed
  · rintro h ⟨k, hk, hfeed⟩
    exact h (lo + k) (by omega) (by omega) (Array.getElem?_eq_some_iff.mpr ⟨by omega, hfeed⟩)

theorem lineFeeds_self (t : Text) (i : Nat) : t.lineFeeds i i = 0 :=
  lineFeeds_eq_zero_iff.mpr fun _ h1 h2 => absurd h2 (Nat.not_lt.mpr h1)

theorem lineFeeds_succ_of_lineFeed (h : t[i]? = some '\n') (hlo : lo ≤ i) :
    t.lineFeeds lo (i + 1) = t.lineFeeds lo i + 1 := by
  obtain ⟨hlt, hfeed⟩ := Array.getElem?_eq_some_iff.mp h
  rw [lineFeeds, lineFeeds, slice, slice, Array.extract_succ_right (Nat.lt_succ_of_le hlo) hlt,
    hfeed, Array.count_push_self]

/-- No line feed lies between an offset and the start of its line. -/
theorem lineFeeds_lineStart (hi : i ≤ t.size) : t.lineFeeds (t.lineStart i) i = 0 := by
  refine lineFeeds_eq_zero_iff.mpr fun j hj hji => ?_
  exact ne_lineFeed_of_lineStart_le hj (by omega)

/-- What is found for an offset is the greatest line start up to it. -/
theorem isGreatest_lineStart (t : Text) (offset : Nat) :
    IsGreatest {s | t.IsLineStart s ∧ s ≤ min offset t.size} (t.lineStart offset) := by
  refine ⟨⟨t.isLineStart_lineStart offset, t.lineStart_le offset⟩, fun s ⟨hs, hle⟩ => ?_⟩
  obtain rfl | ⟨i, rfl, hfeed⟩ := hs
  · exact Nat.zero_le _
  · -- The line feed before a greater one would stand on the line of the offset.
    by_contra hlt
    exact ne_lineFeed_of_lineStart_le (Nat.le_of_lt_succ (Nat.lt_of_not_le hlt)) hle hfeed

/-- **A walk up** leaves behind as many line feeds as it was asked for, or all that there
are. -/
theorem lineFeeds_lineStartAbove (hs : t.IsLineStart start) (lines : Nat) :
    t.lineFeeds (t.lineStartAbove start lines) start = min lines (t.lineFeeds 0 start) := by
  induction lines generalizing start with
  | zero => simp [lineFeeds_self]
  | succ n ih =>
    have hsize := hs.le_size
    obtain rfl | ⟨i, rfl, hfeed⟩ := hs
    · simp [lineFeeds_self]
    · -- One line feed is left behind by the step to the start of the line that it ends.
      have hi : i ≤ t.size := Nat.le_of_succ_le hsize
      have hstart := t.lineStart_le_self i
      have habove := t.lineStartAbove_le (t.lineStart i) n
      have hone : ∀ {lo}, lo ≤ t.lineStart i →
          t.lineFeeds lo (i + 1) = t.lineFeeds lo (t.lineStart i) + 1 := by
        intro lo hlo
        rw [lineFeeds_succ_of_lineFeed hfeed (by omega), ← lineFeeds_add hlo hstart,
          lineFeeds_lineStart hi, Nat.add_zero]
      rw [lineStartAbove, hone habove, hone (Nat.zero_le _), ih (t.isLineStart_lineStart i)]
      omega

/-- A line start that leaves as many line feeds behind as an offset does not lie below it. -/
theorem IsLineStart.le_of_lineFeeds_eq (hw : t.IsLineStart w) (hws : w ≤ start)
    (h : t.lineFeeds i start = t.lineFeeds w start) : w ≤ i := by
  by_contra hlt
  have hnone : t.lineFeeds i w = 0 := by
    have := t.lineFeeds_add (Nat.le_of_not_le hlt) hws
    omega
  -- The line feed before the line start would be one between the two.
  obtain rfl | ⟨j, rfl, hfeed⟩ := hw
  · exact hlt (Nat.zero_le i)
  · exact lineFeeds_eq_zero_iff.mp hnone j (by omega) (Nat.lt_succ_self j) hfeed

/-- A line start that leaves all line feeds behind is the beginning of the text. -/
theorem IsLineStart.eq_zero_of_lineFeeds_eq (hw : t.IsLineStart w) (hle : w ≤ start)
    (h : t.lineFeeds w start = t.lineFeeds 0 start) : w = 0 :=
  Nat.le_zero.mp (hw.le_of_lineFeeds_eq hle h.symm)

/-- A walk up ends where as many line feeds are left behind as it was asked for, or all that
there are. -/
theorem lineStartAbove_eq_iff (hs : t.IsLineStart start) {lines : Nat} :
    t.lineStartAbove start lines = r ↔
      t.IsLineStart r ∧ r ≤ start ∧
        t.lineFeeds r start = min lines (t.lineFeeds 0 start) := by
  have habove := isLineStart_lineStartAbove lines hs
  have hle := t.lineStartAbove_le start lines
  have hfeeds := lineFeeds_lineStartAbove hs lines
  constructor
  · rintro rfl
    exact ⟨habove, hle, hfeeds⟩
  · rintro ⟨hr, hrs, hcount⟩
    have heq := hfeeds.trans hcount.symm
    exact Nat.le_antisymm (habove.le_of_lineFeeds_eq hle heq.symm)
      (hr.le_of_lineFeeds_eq hrs heq)

/-- **Line starts are found by their number.**  What is found for an offset is the greatest
line start up to it.  A walk up from a line start ends at the one line start that leaves as
many line feeds behind as the walk was asked for, or all that there are; so two walks add up,
and from below the first line each one goes up. -/
theorem isGreatest_lineStart_and_lineStartAbove_eq_iff (t : Text) :
    (∀ offset, IsGreatest {s | t.IsLineStart s ∧ s ≤ min offset t.size} (t.lineStart offset)) ∧
    ∀ start, t.IsLineStart start →
      (∀ lines r, t.lineStartAbove start lines = r ↔
        t.IsLineStart r ∧ r ≤ start ∧
          t.lineFeeds r start = min lines (t.lineFeeds 0 start)) ∧
      (∀ m n, t.lineStartAbove (t.lineStartAbove start m) n = t.lineStartAbove start (m + n)) ∧
      ∀ lines, 0 < start → 0 < lines → t.lineStartAbove start lines < start := by
  refine ⟨t.isGreatest_lineStart, fun start hs => ⟨fun lines r => lineStartAbove_eq_iff hs,
    t.lineStartAbove_add start, fun lines hstart hlines => ?_⟩⟩
  exact t.lineStartAbove_lt hstart.ne' hlines.ne'

/-- Four lines, the third of them empty, and the start of a fifth. -/
def spacedLinesText : Text := .ofString "ab\ncd\n\nef\n"

theorem isGreatest_lineStart_spacedLinesText :
    (spacedLinesText.IsLineStart 10 ∧ 0 < 10 ∧ 0 < 3) ∧
      spacedLinesText.lineStart 10 = 10 ∧ spacedLinesText.lineStartAbove 10 3 = 3 ∧
      (spacedLinesText.IsLineStart 3 ∧ 3 ≤ 10 ∧
        spacedLinesText.lineFeeds 3 10 = min 3 (spacedLinesText.lineFeeds 0 10)) ∧
      spacedLinesText.lineStartAbove 10 3 < 10 := by
  have hs : spacedLinesText.IsLineStart 10 := by decide +kernel
  have habove : spacedLinesText.lineStartAbove 10 3 = 3 := by decide +kernel
  obtain ⟨hgreatest, hwalks⟩ := isGreatest_lineStart_and_lineStartAbove_eq_iff spacedLinesText
  obtain ⟨hexact, -, hlt⟩ := hwalks 10 hs
  have hstart : spacedLinesText.lineStart 10 = 10 :=
    (hgreatest 10).unique ⟨⟨hs, by decide +kernel⟩, fun s hle => hle.2.trans (Nat.min_le_left ..)⟩
  exact ⟨⟨hs, by decide, by decide⟩, hstart, habove, (hexact 3 3).mp habove,
    hlt 3 (by decide) (by decide)⟩

end Text

end BracketMatching
