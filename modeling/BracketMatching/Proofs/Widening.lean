/-
Widening: which of its windows decides a backward scan, and what is lost by it.

While a window shows no opener, or shows that it does not start in code, the next one
starts further up.  The scan stops at the first window that decides: one that shows an
opener, or one whose reading comes past the closer without having met it in code.

* `Text.windowStart` — where the windows start;
* `Text.readWindow_eq`, `Text.readWindow_eq_opener_iff` — what a window says, by the
  run that starts as code where it does;
* `Text.exists_decidesAt_windowStart` — the first window that can decide does;
* `BracketTable.exists_openerBefore_iff` — where a reading of the whole text finds an
  opener, **the widening scan finds one, too**, unless a window misses the closer
  before one has shown an opener;
* `BracketTable.not_forall_exists_openerBefore` — which does happen: a quote in a
  comment makes a string of all that follows, if the window starts in the comment and
  the quote follows an at sign.

Design note: a window that misses the closer contradicts the line of the closer, from
which it is code.  The scan does not weigh the two against each other, but stops.
-/
import BracketMatching.Proofs.Search
import BracketMatching.Proofs.WindowReading

namespace BracketMatching

namespace Text

variable {t : Text} {b : Bracket} {k last q round w : Nat} {r : Option Nat}

/-! ### Windows that decide -/

/-- The window from `w` decides a widening scan. -/
inductive DecidesAt (t : Text) (b : Bracket) (last w : Nat) : (r : Option Nat) → Prop
  | opener {q : Nat} (h : t.readWindow b .code w last = .ok (.opener q)) :
      DecidesAt t b last w (some q)
  | outOfContext (h : t.readWindow b .code w last = .ok .outOfContext) :
      DecidesAt t b last w none
  | noOpener (h : t.readWindow b .code w last = .ok .noOpener) (hw : w = 0) :
      DecidesAt t b last w none

theorem DecidesAt.yields (h : t.DecidesAt b last w r) :
    Yields (t.openerWidening b last round w) r := by
  cases h with
  | opener h =>
    rw [openerWidening.eq_def, h]
    exact .quiet _
  | outOfContext h =>
    rw [openerWidening.eq_def, h]
    exact ⟨_, rfl⟩
  | noOpener h hw =>
    subst hw
    rw [openerWidening.eq_def, h]
    exact .quiet _

/-- A window that proves nothing leaves the answer to a wider one. -/
theorem yields_openerWidening_of_wider (hw : w ≠ 0)
    (h : t.readWindow b .code w last = .ok .noOpener ∨
      t.readWindow b .code w last = .ok .falseStart)
    (hr : Yields (t.openerWidening b last (round + 1) (t.widerStart round w)) r) :
    Yields (t.openerWidening b last round w) r := by
  have hafter := hr.after (.widened (t.widerStart round w) last)
  rw [openerWidening.eq_def]
  rcases h with h | h
  · rw [h]
    simpa only [bind, Except.bind, hw, ↓reduceDIte] using hafter
  · rw [h]
    simpa only [bind, Except.bind, hw, ↓reduceDIte] using hafter

/-- A reading breaks off, or reads up to a closer that is code or is not. -/
theorem readWindow_eq (hb : b.Usable) (hlast : last < t.size) (hw : w ≤ last + 1) :
    (∃ i, i ≤ last ∧ t.StopsAt w i) ∧ t.readWindow b .code w last = .ok (.stopped w) ∨
      (∀ i, i ≤ last → ¬ t.StopsAt w i) ∧
        (¬ t.VisitsCode w (last + 1) ∧ t.readWindow b .code w last = .ok .outOfContext ∨
          t.VisitsCode w (last + 1) ∧ ∃ r, t.readWindow b .code w last = .ok (.ofOpener r) ∧
            (t.codeSides b w).LastOpener ((t.codeSides b w).height (last + 1)) w (last + 1) r) := by
  have hanswer := answersWindow hb hlast hw
  by_cases hstop : ∃ i, i ≤ last ∧ t.StopsAt w i
  · obtain ⟨i, hi, hs⟩ := hstop
    exact .inl ⟨⟨i, hi, hs⟩, hanswer.stopped i hs.le hi hs⟩
  · have hgo : ∀ i, i ≤ last → ¬ t.StopsAt w i := fun i h1 h2 => hstop ⟨i, h1, h2⟩
    refine .inr ⟨hgo, ?_⟩
    by_cases hcode : t.VisitsCode w (last + 1)
    · exact .inr ⟨hcode, hanswer.found (fun i _ => hgo i) hcode⟩
    · exact .inl ⟨hcode, hanswer.missed (fun i _ => hgo i) hcode⟩

/-- A window shows an opener exactly if its reading comes up to the closer in code, and
the opener is the last one that waits for it. -/
theorem readWindow_eq_opener_iff (hb : b.Usable) (hlast : last < t.size) (hw : w ≤ last + 1) :
    t.readWindow b .code w last = .ok (.opener q) ↔
      (∀ i, i ≤ last → ¬ t.StopsAt w i) ∧ t.VisitsCode w (last + 1) ∧
        (t.codeSides b w).LastOpener ((t.codeSides b w).height (last + 1)) w (last + 1)
          (some q) := by
  constructor
  · intro h
    rcases readWindow_eq hb hlast hw with ⟨-, h'⟩ | ⟨hgo, ⟨-, h'⟩ | ⟨hcode, r, h', hopener⟩⟩
    · rw [h, Verdict.stopped] at h'
      split at h' <;> exact nomatch h'
    · exact nomatch h.symm.trans h'
    · cases r with
      | none => exact nomatch h.symm.trans h'
      | some q' =>
        obtain rfl := Verdict.opener.inj (Except.ok.inj (h.symm.trans h'))
        exact ⟨hgo, hcode, hopener⟩
  · rintro ⟨hgo, hcode, hopener⟩
    obtain ⟨r, h, hr⟩ := (answersWindow hb hlast hw).found (fun i _ => hgo i) hcode
    obtain rfl := hopener.unique hr
    exact h

/-- The start of the window after `n` more widenings: `2 ^ round` lines up, then twice as
many, and so on. -/
def windowStart (t : Text) (round w : Nat) : (n : Nat) → Nat
  | 0 => w
  | n + 1 => t.windowStart (round + 1) (t.widerStart round w) n

@[simp] theorem windowStart_zero (t : Text) (round n : Nat) : t.windowStart round 0 n = 0 := by
  induction n generalizing round with
  | zero => rfl
  | succ n ih => simp [windowStart, widerStart, ih]

theorem windowStart_le (t : Text) (round w n : Nat) : t.windowStart round w n ≤ w := by
  induction n generalizing round w with
  | zero => exact le_refl w
  | succ n ih => exact (ih _ _).trans (t.lineStartAbove_le w _)

theorem isLineStart_windowStart (round n : Nat) (hw : t.IsLineStart w) :
    t.IsLineStart (t.windowStart round w n) := by
  induction n generalizing round w with
  | zero => exact hw
  | succ n ih => exact ih _ (isLineStart_lineStartAbove _ hw)

/-- The window from `w` proves nothing, and a wider one can decide. -/
def LeavesOpen (t : Text) (b : Bracket) (last w : Nat) : Prop :=
  w ≠ 0 ∧ (t.readWindow b .code w last = .ok .noOpener ∨
    t.readWindow b .code w last = .ok .falseStart)

/-- A window decides, or leaves the decision to a wider one. -/
theorem decidesAt_or_leavesOpen (hb : b.Usable) (hlast : last < t.size) (hw : w ≤ last + 1) :
    (∃ r, t.DecidesAt b last w r) ∨ t.LeavesOpen b last w := by
  rcases readWindow_eq hb hlast hw with ⟨-, h⟩ | ⟨-, ⟨-, h⟩ | ⟨-, r, h, -⟩⟩
  · rw [Verdict.stopped] at h
    split at h
    · exact .inl ⟨none, .outOfContext h⟩
    · next hne => exact .inr ⟨hne, .inr h⟩
  · exact .inl ⟨none, .outOfContext h⟩
  · cases r with
    | none =>
      by_cases hzero : w = 0
      · exact .inl ⟨none, .noOpener h hzero⟩
      · exact .inr ⟨hzero, .inl h⟩
    | some q => exact .inl ⟨some q, .opener h⟩

/-- A widening scan is decided by the first of its windows that can decide. -/
theorem exists_decidesAt_windowStart (round : Nat) (hb : b.Usable) (hlast : last < t.size)
    (hwl : w ≤ last + 1) :
    ∃ n r, t.DecidesAt b last (t.windowStart round w n) r ∧
      Yields (t.openerWidening b last round w) r ∧
      ∀ m, m < n → t.LeavesOpen b last (t.windowStart round w m) := by
  induction w using Nat.strong_induction_on generalizing round with
  | _ w ih =>
  rcases decidesAt_or_leavesOpen hb hlast hwl with ⟨r, hr⟩ | hopen
  · exact ⟨0, r, hr, hr.yields, fun m hm => absurd hm (Nat.not_lt_zero m)⟩
  · obtain ⟨hne, hverdict⟩ := id hopen
    have hlt := t.widerStart_lt round hne
    obtain ⟨n, r, hr, hy, hbefore⟩ := ih _ hlt (round + 1) (hlt.le.trans hwl)
    refine ⟨n + 1, r, hr, yields_openerWidening_of_wider hne hverdict hy, fun m hm => ?_⟩
    cases m with
    | zero => exact hopen
    | succ m => exact hbefore m (Nat.lt_of_succ_lt_succ hm)

/-- A widening scan is decided by one of its windows. -/
theorem exists_decidesAt (round : Nat) (hb : b.Usable) (hlast : last < t.size)
    (hw : t.IsLineStart w) (hwl : w ≤ last + 1) :
    ∃ w' r, w' ≤ w ∧ t.IsLineStart w' ∧ t.DecidesAt b last w' r ∧
      Yields (t.openerWidening b last round w) r := by
  obtain ⟨n, r, hr, hy, -⟩ := exists_decidesAt_windowStart round hb hlast hwl
  exact ⟨_, r, t.windowStart_le round w n, isLineStart_windowStart round n hw, hr, hy⟩

/-- From a closer that is code, seen from the start of its line, the scan widens its
windows. -/
theorem openerBefore_of_site (hk : last + 1 < t.size)
    (hsite : t.siteAt (t.lineStart (last + 1)) (last + 1) = .ok .code) :
    t.openerBefore b last = t.openerWidening b last 0 (t.lineStart (last + 1)) :=
  openerBefore_of_siteAt hk hsite

/-! ### Windows that miss the closer -/

/-- The reading from `w` meets nothing that contradicts it before `k`, and yet does not
come to `k` in plain code. -/
structure Misses (t : Text) (w k : Nat) : Prop where
  consistent : ∀ i, i < k → ¬ t.Contradicts w i
  not_code : ¬ t.VisitsCode w k

/-- The reading from `w` does not break off before `k`, comes to `k` in plain code, and
has met an opener before with equally many openers and closers in plain code between. -/
structure ShowsOpener (t : Text) (b : Bracket) (w k : Nat) : Prop where
  unstopped : ∀ i, i < k → ¬ t.StopsAt w i
  code_at : t.VisitsCode w k
  exists_pairs : ∃ q, (t.codeSides b w).Pairs q k

theorem showsOpener_iff (hb : b.Usable) (hc : t[last + 1]? = some b.closer)
    (hw : w ≤ last + 1) :
    t.ShowsOpener b w (last + 1) ↔ ∃ q, t.readWindow b .code w last = .ok (.opener q) := by
  have hlast : last < t.size := by
    have := lt_size_of_getElem? hc
    omega
  simp only [readWindow_eq_opener_iff hb hlast hw]
  constructor
  · rintro ⟨hgo, hcode, q, hpairs⟩
    have hside := hpairs.2.2.1
    obtain ⟨q, hq⟩ := hpairs.exists_isGreatest
    have hopener := (Sides.lastOpener_some_iff hside).mpr hq
    have hwq : w ≤ q := (codeSides_eq_some.mp hq.1.2.1).1.le
    exact ⟨q, fun i hi => hgo i (Nat.lt_succ_of_le hi), hcode, hopener.of_ge w.zero_le hwq⟩
  · rintro ⟨q, hgo, hcode, ⟨-, hqlast, hq, hheight⟩, -⟩
    have hside : t.codeSides b w (last + 1) = some .backward :=
      codeSides_eq_some.mpr ⟨hcode, (sides_eq_backward hb).mpr hc⟩
    exact ⟨fun i hi => hgo i (Nat.le_of_lt_succ hi), hcode, q, hqlast, hq, hside, hheight⟩

/-- Below the beginning of the text, what puts the closer out of context is that it is
missed. -/
theorem misses_iff (hb : b.Usable) (hlast : last < t.size) (hw : w ≤ last + 1) (hne : w ≠ 0) :
    t.Misses w (last + 1) ↔ t.readWindow b .code w last = .ok .outOfContext := by
  have hanswer := answersWindow hb hlast hw
  constructor
  · rintro ⟨hconsistent, hcode⟩
    refine hanswer.missed (fun i _ hi hstop => ?_) hcode
    exact hconsistent i (Nat.lt_succ_of_le hi) hstop.contradicts
  · intro h
    rcases readWindow_eq hb hlast hw with ⟨-, h'⟩ | ⟨hgo, ⟨hcode, -⟩ | ⟨-, r, h', -⟩⟩
    · rw [h, Verdict.stopped, if_neg hne] at h'
      exact nomatch h'
    · exact ⟨fun i hi hc => hgo i (Nat.le_of_lt_succ hi) (hc.stopsAt hne), hcode⟩
    · cases r <;> exact nomatch h.symm.trans h'

/-- A window that leaves the decision open neither misses the closer nor shows an
opener. -/
theorem LeavesOpen.not_misses (h : t.LeavesOpen b last w) (hb : b.Usable)
    (hlast : last < t.size) (hw : w ≤ last + 1) : ¬ t.Misses w (last + 1) := by
  obtain ⟨hne, h⟩ := h
  rw [misses_iff hb hlast hw hne]
  intro h'
  rcases h with h | h <;> exact nomatch h.symm.trans h'

theorem LeavesOpen.not_showsOpener (h : t.LeavesOpen b last w) (hb : b.Usable)
    (hc : t[last + 1]? = some b.closer) (hw : w ≤ last + 1) :
    ¬ t.ShowsOpener b w (last + 1) := by
  rw [showsOpener_iff hb hc hw]
  rintro ⟨q, h'⟩
  rcases h.2 with h | h <;> exact nomatch h.symm.trans h'

end Text

namespace BracketTable

variable {table : BracketTable} {t : Text} {b : Bracket} {last q : Nat}

/-- **Widening loses an opener only to a window that misses the closer.**  If a reading
of the whole text finds an opener for a closer that is code on its line, then so does
the widening scan, exactly if every window that misses the closer comes behind one that
shows an opener. -/
theorem exists_openerBefore_iff (hb : b ∈ table.brackets) (hc : t[last + 1]? = some b.closer)
    (hsite : t.siteAt (t.lineStart (last + 1)) (last + 1) = .ok .code)
    (hwhole : t.readWindow b .code 0 last = .ok (.opener q)) :
    (∃ q', Yields (t.openerBefore b last) (some q')) ↔
      ∀ n, t.Misses (t.windowStart 0 (t.lineStart (last + 1)) n) (last + 1) →
        ∃ m, m < n ∧
          t.ShowsOpener b (t.windowStart 0 (t.lineStart (last + 1)) m) (last + 1) := by
  have hu := usable_of_mem hb
  have hsize := Text.lt_size_of_getElem? hc
  have hlast : last < t.size := by omega
  have hle := t.lineStart_le_self (last + 1)
  have hstart : ∀ n, t.windowStart 0 (t.lineStart (last + 1)) n ≤ last + 1 :=
    fun n => (t.windowStart_le 0 _ n).trans hle
  obtain ⟨n, r, hr, hy, hbefore⟩ := Text.exists_decidesAt_windowStart 0 hu hlast hle
  rw [← Text.openerBefore_of_site hsize hsite] at hy
  generalize hw : t.windowStart 0 (t.lineStart (last + 1)) n = w at hr
  cases hr with
  | @opener q' h =>
    have hshows : t.ShowsOpener b w (last + 1) :=
      (Text.showsOpener_iff hu hc (hw ▸ hstart n)).mpr ⟨q', h⟩
    refine iff_of_true ⟨q', hy⟩ fun n' hmisses => ?_
    rcases Nat.lt_trichotomy n' n with hlt | rfl | hlt
    · exact absurd hmisses ((hbefore n' hlt).not_misses hu hlast (hstart n'))
    · rw [hw] at hmisses
      exact absurd hshows.code_at hmisses.not_code
    · exact ⟨n, hlt, hw ▸ hshows⟩
  | outOfContext h =>
    have hne : w ≠ 0 := by
      rintro rfl
      exact nomatch h.symm.trans hwhole
    have hmisses : t.Misses w (last + 1) :=
      (Text.misses_iff hu hlast (hw ▸ hstart n) hne).mpr h
    refine iff_of_false (fun ⟨q', hq'⟩ => nomatch hy.unique hq') fun hall => ?_
    obtain ⟨m, hm, hshows⟩ := hall n (hw ▸ hmisses)
    exact (hbefore m hm).not_showsOpener hu hc (hstart m) hshows
  | noOpener h hzero =>
    subst hzero
    exact nomatch h.symm.trans hwhole

/-- A comment whose second line looks like the end of a comment behind a bracket. -/
def spannedCallText : Text := .ofString "f(\n/*\n( */\nx)"

theorem exists_openerBefore_spannedCallText :
    (spannedCallText[12]? = some ')' ∧
      spannedCallText.siteAt (spannedCallText.lineStart 12) 12 = .ok .code ∧
      spannedCallText.readWindow ⟨'(', ')'⟩ .code 0 11 = .ok (.opener 1)) ∧
    ∃ q', Yields (spannedCallText.openerBefore ⟨'(', ')'⟩ 11) (some q') := by
  have hyps : spannedCallText[12]? = some ')' ∧
      spannedCallText.siteAt (spannedCallText.lineStart 12) 12 = .ok .code ∧
      spannedCallText.readWindow ⟨'(', ')'⟩ .code 0 11 = .ok (.opener 1) := by decide +kernel
  obtain ⟨hc, hsite, hwhole⟩ := id hyps
  have hb : ⟨'(', ')'⟩ ∈ standard.brackets := by decide
  refine ⟨hyps, (exists_openerBefore_iff hb hc hsite hwhole).mpr fun n hmisses => ?_⟩
  -- The window in the comment contradicts itself, and the others come to the closer.
  have hsecond : spannedCallText.Contradicts 6 8 := by decide +kernel
  have hfirst : spannedCallText.VisitsCode 11 12 := by decide +kernel
  have hwide : spannedCallText.VisitsCode 0 12 := by decide +kernel
  have hstart : spannedCallText.lineStart 12 = 11 := by decide +kernel
  have hone : spannedCallText.windowStart 0 11 1 = 6 := by decide +kernel
  have htwo : ∀ n, spannedCallText.windowStart 0 11 (n + 2) = 0 := by
    intro n
    have hwider : spannedCallText.widerStart 1 (spannedCallText.widerStart 0 11) = 0 := by
      decide +kernel
    rw [Text.windowStart, Text.windowStart, hwider, Text.windowStart_zero]
  rw [hstart] at hmisses
  rcases n with _ | _ | n
  · exact absurd hfirst hmisses.not_code
  · rw [hone] at hmisses
    exact absurd hsecond (hmisses.consistent 8 (by decide))
  · rw [htwo] at hmisses
    exact absurd hwide hmisses.not_code

/-- A comment with an at sign and a quote on its second line. -/
def quotedCommentText : Text := .ofString "(/*\n@\"*/\n)"

/-- A reading of the whole text may find an opener that the widening scan does not. -/
theorem not_forall_exists_openerBefore :
    ¬ ∀ (table : BracketTable) (t : Text) (b : Bracket) (last q : Nat), b ∈ table.brackets →
      t[last + 1]? = some b.closer →
      t.siteAt (t.lineStart (last + 1)) (last + 1) = .ok .code →
      t.readWindow b .code 0 last = .ok (.opener q) →
      ∃ q', Yields (t.openerBefore b last) (some q') := by
  intro h
  obtain ⟨q', hq'⟩ := h standard quotedCommentText ⟨'(', ')'⟩ 8 0 (by decide)
    (by decide +kernel) (by decide +kernel) (by decide +kernel)
  have hnone : Yields (quotedCommentText.openerBefore ⟨'(', ')'⟩ 8) none := by decide +kernel
  exact nomatch hnone.unique hq'

end BracketTable

end BracketMatching
