/-
Windows count: what a window says, without a stack.

The reading of a window keeps the openers that are still open on a stack, ignores closers
that find it empty, and may end early in two ways.  All the same, its verdict is a matter of
counting, among what the run that starts as code with the window visits in plain code.

* `Text.windowCount` — how often that run visits a character behind an offset;
* `Text.WaitsInWindow` — an opener with as many openers as closers behind it;
* `BracketTable.readWindow_counts` — **the verdict of a window**: a false start or not, a
  closer that is missed, or the last opener that waits.

Design note: the reading need not end at a closer.  What is found waits for whatever stands
behind the window, and the verdict does not depend on what that is.
-/
import BracketMatching.Proofs.WindowReading

namespace BracketMatching

namespace Text

variable {t : Text} {b : Bracket} {k last v w : Nat} {r : Option Nat}

/-- How often the run from `w` visits `c` in plain code behind `k`, up to `last`. -/
def windowCount (t : Text) (w : Nat) (c : Char) (k last : Nat) : Nat :=
  (List.range' (k + 1) (last - k)).countP fun i => t.VisitsCode w i ∧ t[i]? = some c

/-- The run from `w` visits an opener of `b` at `k` in plain code, and equally many openers
and closers behind it, up to `last`. -/
structure WaitsInWindow (t : Text) (b : Bracket) (w last k : Nat) : Prop where
  le_last : k ≤ last
  opener : t[k]? = some b.opener
  code : t.VisitsCode w k
  count_eq : t.windowCount w b.opener k last = t.windowCount w b.closer k last

instance decidableWaitsInWindow (t : Text) (b : Bracket) (w last k : Nat) :
    Decidable (t.WaitsInWindow b w last k) :=
  decidable_of_iff
    (k ≤ last ∧ t[k]? = some b.opener ∧ t.VisitsCode w k ∧
      t.windowCount w b.opener k last = t.windowCount w b.closer k last)
    ⟨fun ⟨h1, h2, h3, h4⟩ => ⟨h1, h2, h3, h4⟩, fun ⟨h1, h2, h3, h4⟩ => ⟨h1, h2, h3, h4⟩⟩

theorem windowCount_opener :
    t.windowCount w b.opener k last = (t.codeSides b w).count .forward (k + 1) (last + 1) := by
  simp only [windowCount, Sides.count, codeSides_eq_some, sides_eq_forward,
    Nat.add_sub_add_right]

theorem windowCount_closer (hb : b.Usable) :
    t.windowCount w b.closer k last = (t.codeSides b w).count .backward (k + 1) (last + 1) := by
  simp only [windowCount, Sides.count, codeSides_eq_some, sides_eq_backward hb,
    Nat.add_sub_add_right]

/-- An opener waits exactly if the height behind it is the height behind the window. -/
theorem waitsInWindow_iff (hb : b.Usable) :
    t.WaitsInWindow b w last k ↔
      w ≤ k ∧ k < last + 1 ∧ t.codeSides b w k = some .forward ∧
        (t.codeSides b w).height (k + 1) = (t.codeSides b w).height (last + 1) := by
  constructor
  · rintro ⟨hle, ho, hcode, hcount⟩
    have hlt : k < last + 1 := Nat.lt_succ_of_le hle
    have hheight := (t.codeSides b w).height_eq_add_count (show k + 1 ≤ last + 1 from hlt)
    rw [windowCount_opener, windowCount_closer hb] at hcount
    refine ⟨hcode.le, hlt, codeSides_eq_some.mpr ⟨hcode, sides_eq_forward.mpr ho⟩, ?_⟩
    omega
  · rintro ⟨-, hlt, hside, hheight⟩
    obtain ⟨hcode, ho⟩ := codeSides_eq_some.mp hside
    have hcount := (t.codeSides b w).height_eq_add_count (show k + 1 ≤ last + 1 from hlt)
    refine ⟨Nat.le_of_lt_succ hlt, sides_eq_forward.mp ho, hcode, ?_⟩
    rw [windowCount_opener, windowCount_closer hb]
    omega

/-- What is on top of the stack behind the window is the last opener that waits. -/
theorem lastOpener_window_some_iff (hb : b.Usable) :
    (t.codeSides b w).LastOpener ((t.codeSides b w).height (last + 1)) w (last + 1) (some k) ↔
      IsGreatest {k | t.WaitsInWindow b w last k} k := by
  simp only [Sides.LastOpener, waitsInWindow_iff hb]

theorem lastOpener_window_none_iff (hb : b.Usable) :
    (t.codeSides b w).LastOpener ((t.codeSides b w).height (last + 1)) w (last + 1) none ↔
      ∀ k, ¬ t.WaitsInWindow b w last k := by
  simp only [Sides.LastOpener, waitsInWindow_iff hb]
  constructor
  · rintro h k ⟨h1, h2, h3, h4⟩
    exact h k h1 h2 h3 h4
  · intro h k h1 h2 h3 h4
    exact h k ⟨h1, h2, h3, h4⟩

/-- A beginning of the window that has no openers can be left out. -/
theorem lastOpener_window_of_no_opener (hwv : w ≤ v) (hcode : t.VisitsCode w v)
    (hnone : ∀ k, k < v → t.VisitsCode w k → t[k]? ≠ some b.opener)
    (h : (t.codeSides b v).LastOpener ((t.codeSides b v).height (last + 1)) v (last + 1) r) :
    (t.codeSides b w).LastOpener ((t.codeSides b w).height (last + 1)) w (last + 1) r := by
  have hsame := h.congr fun j hvj _ _ => (hcode.codeSides_eq (b := b) hvj).symm
  cases r with
  | some k => exact hsame.of_le hwv
  | none =>
    intro q hwq hq hside
    by_cases hvq : v ≤ q
    · exact hsame q hvq hq hside
    · obtain ⟨hqc, hqo⟩ := codeSides_eq_some.mp hside
      exact absurd (sides_eq_forward.mp hqo) (hnone q (Nat.lt_of_not_le hvq) hqc)

end Text

namespace BracketTable

variable {table : BracketTable} {t : Text} {b : Bracket} {last w : Nat}

/-- **A window counts.**  If its reading breaks off, that is all it says.  Otherwise it says
whether the run that starts with it visits what is behind it in plain code, and if so, which
is the last opener that waits, if there is one; and what comes before all openers of the
window, such as closers that have none, could be left out. -/
theorem readWindow_counts (hb : b ∈ table.brackets) (hw : w ≤ last + 1)
    (hlast : last + 1 < t.size) :
    (∀ i, i ≤ last → t.StopsAt w i → t.readWindow b .code w last = .ok (.stopped w)) ∧
    ((∀ i, i ≤ last → ¬ t.StopsAt w i) →
      (¬ t.VisitsCode w (last + 1) → t.readWindow b .code w last = .ok .outOfContext) ∧
      (t.VisitsCode w (last + 1) →
        (∀ k, IsGreatest {k | t.WaitsInWindow b w last k} k →
          t.readWindow b .code w last = .ok (.opener k)) ∧
        ((∀ k, ¬ t.WaitsInWindow b w last k) → t.readWindow b .code w last = .ok .noOpener) ∧
        ∀ v, v ≤ last + 1 → t.VisitsCode w v →
          (∀ k, k < v → t.VisitsCode w k → t[k]? ≠ some b.opener) →
          (∀ i, i ≤ last → ¬ t.StopsAt v i) →
          t.readWindow b .code v last = t.readWindow b .code w last)) := by
  have hu := usable_of_mem hb
  have hlt : last < t.size := Nat.lt_of_succ_lt hlast
  have hanswer := Text.answersWindow hu hlt hw
  constructor
  · intro i hi hstop
    exact hanswer.stopped i hstop.le hi hstop
  intro hgo
  constructor
  · intro hmissed
    exact hanswer.missed (fun i _ => hgo i) hmissed
  intro hcode
  obtain ⟨r, hr, hopener⟩ := hanswer.found (fun i _ => hgo i) hcode
  refine ⟨?_, ?_, ?_⟩
  · intro k hk
    obtain rfl := hopener.unique ((Text.lastOpener_window_some_iff hu).mpr hk)
    exact hr
  · intro hnone
    obtain rfl := hopener.unique ((Text.lastOpener_window_none_iff hu).mpr hnone)
    exact hr
  · intro v hv hvcode hnone hgo'
    have hcode' : t.VisitsCode v (last + 1) := (hvcode.visitsCode_iff_of_le hv).mp hcode
    obtain ⟨r', hr', hopener'⟩ := (Text.answersWindow hu hlt hv).found (fun i _ => hgo' i) hcode'
    have hsame := Text.lastOpener_window_of_no_opener hvcode.le hvcode hnone hopener'
    rw [hr, hr', hopener.unique hsame]

/-- A line that begins with the closers of brackets above it. -/
def closingLineText : Text := .ofString "(\n) ) f( \"(\" (a) /* ) */, b)"

theorem readWindow_counts_closingLineText :
    (2 ≤ 26 + 1 ∧ 26 + 1 < closingLineText.size ∧
      (∀ i, i ≤ 26 → ¬ closingLineText.StopsAt 2 i) ∧ closingLineText.VisitsCode 2 (26 + 1) ∧
      IsGreatest {k | closingLineText.WaitsInWindow ⟨'(', ')'⟩ 2 26 k} 7) ∧
    closingLineText.readWindow ⟨'(', ')'⟩ .code 2 26 = .ok (.opener 7) := by
  have hsize : 26 + 1 < closingLineText.size := by decide +kernel
  have hsigns : ∀ i < 27, ¬ closingLineText.Contradicts 2 i := by decide +kernel
  have hgo : ∀ i, i ≤ 26 → ¬ closingLineText.StopsAt 2 i := by
    intro i hi hstop
    exact hsigns i (Nat.lt_succ_of_le hi) hstop.contradicts
  have hcode : closingLineText.VisitsCode 2 (26 + 1) := by decide +kernel
  have hlater : ∀ k < 27, 7 < k → ¬ closingLineText.WaitsInWindow ⟨'(', ')'⟩ 2 26 k := by
    decide +kernel
  have hgreatest : IsGreatest {k | closingLineText.WaitsInWindow ⟨'(', ')'⟩ 2 26 k} 7 := by
    refine ⟨by decide +kernel, fun k hk => Nat.le_of_not_lt fun hlt => ?_⟩
    exact hlater k (Nat.lt_succ_of_le hk.le_last) hlt hk
  have hb : ⟨'(', ')'⟩ ∈ standard.brackets := by decide
  refine ⟨⟨by decide, hsize, hgo, hcode, hgreatest⟩, ?_⟩
  exact (((readWindow_counts hb (by decide) hsize).2 hgo).2 hcode).1 7 hgreatest

end BracketTable

end BracketMatching
