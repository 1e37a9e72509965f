/-
The backward search, for closers in code.

A backward search trusts a line start: its glance the start of a line without
marks, its windows a start whose reading shows no sign of being wrong.  So it is
right as far as these are.  A glance takes a line to end with a line feed, though,
and overlooks what a carriage return of its own ends (`Text.BareReturn`).

* `Text.PassesForCode` — a line start that is not code, but reads like it up to
  the closer: the one way in which a search is led astray;
* `Text.visitsCode_or_passesForCode_of_unmarked`,
  `Text.visitsCode_or_passesForCode_of_opener` — the opener that a glance, or a
  window, finds is in plain code, or hidden behind such a line start;
* `Text.exists_openerBefore`, `Text.exists_partnerBefore` — if there is no such line
  start, the last opener in code is found, if there is one.
-/
import BracketMatching.Proofs.Glances
import BracketMatching.Proofs.Widening
import Mathlib.Data.Nat.Find

namespace BracketMatching

theorem Glyph.isLineBreak_ofChar_iff {c : Char} :
    (Glyph.ofChar c).isLineBreak = true ↔ c = '\n' ∨ c = '\r' := by
  unfold ofChar
  split <;> simp_all [isLineBreak]

namespace Text

variable {t : Text} {b : Bracket} {i k q s last round w : Nat} {c d : Char} {r : Option Nat}

/-! ### Line starts that pass for code -/

/-- The line start `s` is not code.  Yet its reading as code meets no sign of that
before `k`, and comes to `k` in plain code. -/
structure PassesForCode (t : Text) (s k : Nat) : Prop where
  lineStart : t.IsLineStart s
  not_code : ¬ t.VisitsCode 0 s
  consistent : ∀ i, i < k → ¬ t.Contradicts s i
  code_at : t.VisitsCode s k

/-- At `i` stands a carriage return, with no line feed behind it, and ends the literal or
the line comment that the run from `start` is in. -/
def BareReturn (t : Text) (start i : Nat) : Prop :=
  (t[i]? = some '\r' ∧ t[i + 1]? ≠ some '\n') ∧
    ∃ ctx, t.Visits start i ctx ∧ ctx.isCode = false ∧ ctx.brokenLine.isCode = true

instance decidableBareReturn (t : Text) (start i : Nat) : Decidable (t.BareReturn start i) :=
  decidable_of_iff
    ((t[i]? = some '\r' ∧ t[i + 1]? ≠ some '\n') ∧
      ∃ ctx ∈ t.contextAt i .code start, ctx.isCode = false ∧ ctx.brokenLine.isCode = true)
    (by simp only [Option.mem_def, contextAt_eq_some_iff, BareReturn, Visits])

theorem not_bareReturn_of_not_mem (h : '\r' ∉ t) (start i : Nat) : ¬ t.BareReturn start i :=
  fun hbare => h (Array.mem_of_getElem? hbare.1.1)

theorem closesBlockAt_of_marksAt (h : t.marksAt i = .ok false) : t.closesBlockAt i = false := by
  obtain ⟨c, hc, hm⟩ := exists_of_marksAt_eq_false h
  rw [closesBlockAt, decide_eq_false_iff_not, glyph?_of_getElem? hc, Option.some_inj]
  rintro ⟨hstar, hslash⟩
  rw [hstar, hslash] at hm
  exact absurd hm (by decide)

/-- Without marks nothing contradicts code. -/
theorem not_contradicts_of_unmarked (hm : t.Unmarked s k) (hi : i < k) : ¬ t.Contradicts s i := by
  rintro ⟨ctx, hv, hsign⟩
  have hsi := Reaches.le hv
  obtain rfl : ctx = .code :=
    hv.context_unique (Reaches.code_of_unmarked (hm.mono (le_refl s) hi.le) hsi)
  rcases hsign with ⟨-, hstray⟩ | ⟨-, hcut⟩
  · rw [closesBlockAt_of_marksAt (hm i hsi hi)] at hstray
    exact nomatch hstray
  · exact nomatch hcut

/-- What no mark separates from an offset in code is code, unless something ends with a
line break in between. -/
theorem visitsCode_of_unmarked_line (hk : t.VisitsCode w k) (hwq : w ≤ q) (hqk : q < k)
    (hq : t[q]? = some c) (hc : Glyph.ofChar c = .plain) (hm : t.Unmarked (q + 1) k)
    (hbreak : ∀ m ctx, q < m → m < k → t.BreaksLine m → t.Visits w m ctx →
      ctx.brokenLine.isCode = true → ctx.isCode = true) : t.VisitsCode w q := by
  obtain ⟨p, ctx, s, hp, hs, hpq, hqs, hrest⟩ :=
    (visitsCode_iff.mp hk).exists_step_over hwq hqk
  have hvisit : t.Visits w (p + s.consumed) s.next := hp.step hs
  have hnext : s.next.isCode = true :=
    hrest.isCode_of_unmarked (hm.mono hqs (le_refl k))
      (fun m c hmk hr hb => hbreak m c (hqs.trans_le hr.le) hmk hb (hvisit.trans hr)) rfl
  rcases hpq.eq_or_lt with rfl | hlt
  · rw [step_of_plain hq hc] at hs
    obtain rfl := Except.ok.inj hs
    exact ⟨ctx, hp, hnext⟩
  · -- A step of two over `q` is an escape, and those end in literals.
    have hle := consumed_le_two hs
    obtain rfl : q = p + 1 := by omega
    obtain ⟨c', -, rfl⟩ := exists_getElem?_of_step hs
    have hg : t.glyph? (p + 1) = some .plain := by rw [glyph?_of_getElem? hq, hc]
    rw [hg] at hnext hqs hle
    rw [Context.isCode_step_of_consumed_two (by omega)] at hnext
    exact absurd hnext Bool.false_ne_true

theorem lineStart_eq_of_no_lineFeed (hqk : q ≤ k) (hk : k ≤ t.size)
    (h : ∀ m, q ≤ m → m < k → t[m]? ≠ some '\n') : t.lineStart k = t.lineStart q := by
  induction hqk with
  | refl => rfl
  | @step m hm ih =>
    have hget : t[m]? = some t[m] := Array.getElem?_eq_getElem hk
    rw [lineStart_succ_of_ne hget fun hn => h m hm (Nat.lt_succ_self m) (hn ▸ hget)]
    exact ih (by omega) fun n h1 h2 => h n h1 (Nat.lt_succ_of_lt h2)

/-- If a line ends behind a character without marks behind it, and all lines that do so
are free of marks, then there are none from the start of its line on. -/
theorem unmarked_from_lineStart (hkt : k ≤ t.size) (hq : t[q]? = some c)
    (hc : Glyph.ofChar c = .plain) (hm : t.Unmarked (q + 1) k) (hclean : t.CleanLines (q + 1) k)
    (hfeed : ∃ m, q < m ∧ m < k ∧ t[m]? = some '\n') : t.Unmarked (t.lineStart q) k := by
  -- The first line feed behind the character ends its line.
  obtain ⟨m, ⟨hqm, hmk, hm'⟩, hmin⟩ : ∃ m, (q < m ∧ m < k ∧ t[m]? = some '\n') ∧
      ∀ n, n < m → ¬ (q < n ∧ n < k ∧ t[n]? = some '\n') :=
    ⟨Nat.find hfeed, Nat.find_spec hfeed, fun _ => Nat.find_min hfeed⟩
  have hsame : t.lineStart m = t.lineStart q := by
    refine lineStart_eq_of_no_lineFeed hqm.le (by omega) fun n h1 h2 hn => ?_
    rcases h1.eq_or_lt with rfl | hlt
    · exact ne_lineFeed_of_plain hq hc hn
    · exact hmin n h2 ⟨hlt, by omega, hn⟩
  intro n h1 h2
  by_cases hnm : n < m
  · exact hclean m hqm hmk hm' n (hsame ▸ h1) hnm
  · exact hm n (by omega) h2

/-- What a glance finds is code, or hidden behind the start of its own line. -/
theorem visitsCode_or_passesForCode_of_unmarked
    (hbare : ∀ i, q < i → i < k → ¬ t.BareReturn 0 i) (hk : t.VisitsCode 0 k)
    (hkc : t[k]? = some d) (hd : Glyph.ofChar d = .plain) (hqk : q < k) (hq : t[q]? = some c)
    (hc : Glyph.ofChar c = .plain) (hm : t.Unmarked (q + 1) k) (hclean : t.CleanLines (q + 1) k) :
    t.VisitsCode 0 q ∨
      t.PassesForCode (t.lineStart q) k ∧ t.VisitsCode (t.lineStart q) q := by
  have hkt : k < t.size := lt_size_of_getElem? hkc
  by_cases hfeed : ∃ m, q < m ∧ m < k ∧ t[m]? = some '\n'
  · have hall := unmarked_from_lineStart hkt.le hq hc hm hclean hfeed
    have hsq : t.lineStart q ≤ q := t.lineStart_le_self q
    have hcode : ∀ {n}, t.lineStart q ≤ n → n ≤ k → t.VisitsCode (t.lineStart q) n :=
      fun h1 h2 => ⟨.code, Reaches.code_of_unmarked (hall.mono (le_refl _) h2) h1, rfl⟩
    by_cases hs : t.VisitsCode 0 (t.lineStart q)
    · exact .inl ((hs.visitsCode_iff_of_le hsq).mpr (hcode hsq hqk.le))
    · exact .inr ⟨⟨t.isLineStart_lineStart q, hs, fun n => not_contradicts_of_unmarked hall,
        hcode (by omega) (le_refl k)⟩, hcode hsq hqk.le⟩
  · refine .inl (visitsCode_of_unmarked_line hk q.zero_le hqk hq hc hm
      fun m ctx h1 h2 hbreak hv hbroken => ?_)
    obtain ⟨c', hc', hb⟩ := hbreak
    rcases Glyph.isLineBreak_ofChar_iff.mp hb with rfl | rfl
    · exact absurd ⟨m, h1, h2, hc'⟩ hfeed
    · -- A line feed behind the carriage return would stand before `k`, too.
      have hnext : t[m + 1]? ≠ some '\n' := by
        intro hnext
        rcases (Nat.succ_le_of_lt h2).eq_or_lt with rfl | hlt
        · exact ne_lineFeed_of_plain hkc hd hnext
        · exact hfeed ⟨m + 1, by omega, hlt, hnext⟩
      rw [← Bool.not_eq_false]
      exact fun hcode => hbare m h1 h2 ⟨⟨hc', hnext⟩, ctx, hv, hcode, hbroken⟩

/-! ### Widening -/

/-- What a window finds is code, or hidden behind its start. -/
theorem visitsCode_or_passesForCode_of_opener (hb : b.Usable) (hlast : last < t.size)
    (hw : t.IsLineStart w) (hwl : w ≤ last + 1)
    (h : t.readWindow b .code w last = .ok (.opener q)) :
    w ≤ q ∧ q ≤ last ∧ t.VisitsCode w q ∧
      (t.VisitsCode 0 w ∨ t.PassesForCode w (last + 1)) := by
  obtain ⟨hgo, hcode, ⟨hwq, hqk, hq, -⟩, -⟩ := (readWindow_eq_opener_iff hb hlast hwl).mp h
  refine ⟨hwq, Nat.le_of_lt_succ hqk, (codeSides_eq_some.mp hq).1, ?_⟩
  by_cases hzero : t.VisitsCode 0 w
  · exact .inl hzero
  · have hne : w ≠ 0 := by
      rintro rfl
      exact hzero (t.visitsCode_self 0)
    exact .inr ⟨hw, hzero, fun i hi hc => hgo i (by omega) (hc.stopsAt hne), hcode⟩

/-- A stray end of a block comment is all that stops a reading of the whole text. -/
theorem not_stopsAt_zero (hstray : t.NoStrayEnd 0 0 k) (hi : i < k) : ¬ t.StopsAt 0 i := by
  rintro ⟨ctx, hv, ⟨hc, hend⟩ | ⟨hne, -⟩⟩
  · rw [hstray i i.zero_le hi ⟨ctx, hv, hc⟩] at hend
    exact nomatch hend
  · exact hne rfl

/-- From a start in code, a window shows the last openers in code. -/
theorem lastOpener_of_codeSides (hw : t.VisitsCode 0 w)
    (h : (t.codeSides b w).LastOpener ((t.codeSides b w).height k) w k r) :
    (t.codeSides b 0).LastOpener ((t.codeSides b 0).height k) w k r :=
  h.congr fun _ hwj _ _ => (hw.codeSides_eq hwj).symm

/-- **The widening scan is right** as long as the line starts that it may try are
code, or show before the closer that they are not. -/
theorem exists_openerWidening (round : Nat) (hb : b.Usable) (hlast : last < t.size)
    (hcode : t.VisitsCode 0 (last + 1)) (hstray : t.NoStrayEnd 0 0 (last + 1))
    (hstarts : ∀ s, t.IsLineStart s → s ≤ w →
      t.VisitsCode 0 s ∨ ∃ i, i < last + 1 ∧ t.Contradicts s i)
    (hw : t.IsLineStart w) (hwl : w ≤ last + 1) :
    ∃ r, Yields (t.openerWidening b last round w) r ∧
      (t.codeSides b 0).LastOpener ((t.codeSides b 0).height (last + 1)) 0 (last + 1) r := by
  obtain ⟨w', r, hle, hw', hr, hy⟩ := exists_decidesAt round hb hlast hw hwl
  refine ⟨r, hy, ?_⟩
  rcases readWindow_eq hb hlast (hle.trans hwl) with ⟨⟨i, hi, hs⟩, hv⟩ | ⟨hgo, hv⟩
  · -- A window that is stopped decides nothing.
    have hne : w' ≠ 0 := by
      rintro rfl
      exact not_stopsAt_zero hstray (Nat.lt_succ_of_le hi) hs
    rw [Verdict.stopped, if_neg hne] at hv
    cases hr with
    | opener h => cases hv.symm.trans h
    | outOfContext h => cases hv.symm.trans h
    | noOpener h _ => cases hv.symm.trans h
  · -- One that is not starts in code, and reads on from there as the whole text.
    have hzero : t.VisitsCode 0 w' := by
      rcases hstarts w' hw' hle with hc | ⟨i, hi, hc⟩
      · exact hc
      · by_cases hne : w' = 0
        · exact hne ▸ t.visitsCode_self 0
        · exact absurd (hc.stopsAt hne) (hgo i (by omega))
    obtain ⟨-, r', hv, hopener⟩ :=
      hv.resolve_left fun h => h.1 ((hzero.visitsCode_iff_of_le (hle.trans hwl)).mp hcode)
    have hopener := lastOpener_of_codeSides hzero hopener
    cases hr with
    | opener h =>
      cases r' with
      | none => cases hv.symm.trans h
      | some q =>
        obtain rfl := Verdict.opener.inj (Except.ok.inj (hv.symm.trans h))
        exact hopener.of_le w'.zero_le
    | outOfContext h => cases r' <;> cases hv.symm.trans h
    | noOpener h hz =>
      subst hz
      cases r' with
      | none => exact hopener
      | some q => cases hv.symm.trans h

/-! ### The search -/

/-- From a closer in code, the scan widens its windows. -/
theorem openerBefore_of_code (hk : last + 1 < t.size) (hcode : t.VisitsCode 0 (last + 1))
    (hline : t.VisitsCode 0 (t.lineStart (last + 1)))
    (hstray : t.NoStrayEnd 0 (t.lineStart (last + 1)) (last + 1)) :
    t.openerBefore b last = t.openerWidening b last 0 (t.lineStart (last + 1)) :=
  openerBefore_of_site hk (siteAt_of_visitsCode
    ((hline.visitsCode_iff_of_le (t.lineStart_le_self _)).mp hcode)
    (hstray.of_visitsCode hline))

theorem partnerBefore_of_undecided (h : t.glanceBackward b last = .ok .undecided)
    (hr : Yields (t.openerBefore b last) r) : Yields (t.partnerBefore b last) r := by
  rw [partnerBefore, h]
  exact hr.after _

theorem partnerBefore_of_decided (h : t.glanceBackward b last = .ok (.decided r)) :
    Yields (t.partnerBefore b last) r := by
  rw [partnerBefore, h]
  cases r <;> exact .quiet _

/-- What is decided at a glance, with an opener in code, is right about the brackets
in code. -/
theorem lastOpener_of_unmarked (hb : b.Usable)
    (hlast : (t.sides b).LastOpener ((t.sides b).height k) 0 k r)
    (hm : t.Unmarked ((r.map (· + 1)).getD 0) k) (hcode : ∀ q, r = some q → t.VisitsCode 0 q) :
    (t.codeSides b 0).LastOpener ((t.codeSides b 0).height k) 0 k r := by
  refine hlast.congr fun j _ hjk hj => ?_
  cases r with
  | none =>
    exact (codeSides_eq_sides_of_unmarked (t.visitsCode_self 0) (hm.mono (le_refl 0) hjk.le)
      j.zero_le).symm
  | some q =>
    have hq := sides_eq_forward.mp hlast.1.2.2.1
    have hmark := marksAt_of_has hb hq (Bracket.has_iff.mpr (.inl rfl))
    exact (codeSides_eq_sides_of_unmarked (hcode q rfl) ((hm.cons hmark).mono (le_refl q) hjk.le)
      (hj q rfl)).symm

/-- The opener that a glance finds is in code, if the line starts above the closer's are
code or show before it that they are not. -/
theorem visitsCode_of_unmarked (hb : b.Usable) (hc : t[k]? = some b.closer)
    (hcode : t.VisitsCode 0 k)
    (hstarts : ∀ s, t.IsLineStart s → s ≤ t.lineStart k →
      t.VisitsCode 0 s ∨ ∃ i, i < k ∧ t.Contradicts s i)
    (hbare : ∀ i, q < i → i < k → ¬ t.BareReturn 0 i) (hqk : q < k)
    (hq : t[q]? = some b.opener) (hm : t.Unmarked (q + 1) k) (hclean : t.CleanLines (q + 1) k) : t.VisitsCode 0 q := by
  rcases visitsCode_or_passesForCode_of_unmarked hbare hcode hc hb.closer_plain hqk hq
    hb.opener_plain hm hclean with hq | ⟨hpass, -⟩
  · exact hq
  · rcases hstarts _ hpass.lineStart (t.lineStart_mono hqk.le) with hs | ⟨i, hi, hs⟩
    · exact absurd hs hpass.not_code
    · exact absurd hs (hpass.consistent i hi)

/-- The scan finds the last opener of a closer in code, if the line starts above its own
are code or show before it that they are not. -/
theorem exists_openerBefore (hb : b.Usable) (hc : t[last + 1]? = some b.closer)
    (hcode : t.VisitsCode 0 (last + 1)) (hline : t.VisitsCode 0 (t.lineStart (last + 1)))
    (hstray : t.NoStrayEnd 0 0 (last + 1))
    (hstarts : ∀ s, t.IsLineStart s → s ≤ t.lineStart (last + 1) →
      t.VisitsCode 0 s ∨ ∃ i, i < last + 1 ∧ t.Contradicts s i) :
    ∃ r, Yields (t.openerBefore b last) r ∧
      (t.codeSides b 0).LastOpener ((t.codeSides b 0).height (last + 1)) 0 (last + 1) r := by
  have hk := lt_size_of_getElem? hc
  rw [openerBefore_of_code hk hcode hline fun i h1 => hstray i i.zero_le]
  exact exists_openerWidening 0 hb (Nat.lt_of_succ_lt hk) hcode hstray hstarts
    (t.isLineStart_lineStart _) (t.lineStart_le_self _)

/-- Line starts above the closer's that are code, or show in time that they are not, with
the closer's own. -/
theorem starts_le_lineStart (hline : t.VisitsCode 0 (t.lineStart k))
    (hstarts : ∀ s, t.IsLineStart s → s < t.lineStart k →
      t.VisitsCode 0 s ∨ ∃ i, i < k ∧ t.Contradicts s i) (s : Nat) (hs : t.IsLineStart s)
    (hle : s ≤ t.lineStart k) : t.VisitsCode 0 s ∨ ∃ i, i < k ∧ t.Contradicts s i := by
  rcases hle.eq_or_lt with rfl | hlt
  · exact .inl hline
  · exact hstarts s hs hlt

/-- Glance and scan together find the last opener of a closer in code, if the line
starts above its own are code or show before it that they are not. -/
theorem exists_partnerBefore (hbare : ∀ i, i < last + 1 → ¬ t.BareReturn 0 i) (hb : b.Usable)
    (hc : t[last + 1]? = some b.closer) (hcode : t.VisitsCode 0 (last + 1))
    (hline : t.VisitsCode 0 (t.lineStart (last + 1))) (hstray : t.NoStrayEnd 0 0 (last + 1))
    (hstarts : ∀ s, t.IsLineStart s → s < t.lineStart (last + 1) →
      t.VisitsCode 0 s ∨ ∃ i, i < last + 1 ∧ t.Contradicts s i) :
    ∃ r, Yields (t.partnerBefore b last) r ∧
      (t.codeSides b 0).LastOpener ((t.codeSides b 0).height (last + 1)) 0 (last + 1) r := by
  have hlast : last < t.size := Nat.lt_of_succ_lt (lt_size_of_getElem? hc)
  have hstarts := starts_le_lineStart hline hstarts
  obtain ⟨hu, -⟩ | ⟨r, hr, hopener, hm, hclean⟩ := glanceBackward_right hb hlast
  · obtain ⟨r, hr, hopener⟩ := exists_openerBefore hb hc hcode hline hstray hstarts
    exact ⟨r, partnerBefore_of_undecided hu hr, hopener⟩
  · refine ⟨r, partnerBefore_of_decided hr, lastOpener_of_unmarked hb hopener hm ?_⟩
    rintro q rfl
    obtain ⟨⟨-, hqk, hq, -⟩, -⟩ := hopener
    exact visitsCode_of_unmarked hb hc hcode hstarts (fun i _ => hbare i) hqk
      (sides_eq_forward.mp hq) hm hclean

/-- What the backward search finds for a closer in code is in code, or hidden behind
a line start that passes for code. -/
theorem partnerBefore_sound (hbare : ∀ i, i < last + 1 → ¬ t.BareReturn 0 i) (hb : b.Usable)
    (hc : t[last + 1]? = some b.closer) (hcode : t.VisitsCode 0 (last + 1))
    (hline : t.VisitsCode 0 (t.lineStart (last + 1)))
    (hstray : t.NoStrayEnd 0 (t.lineStart (last + 1)) (last + 1))
    (h : Yields (t.partnerBefore b last) (some q)) :
    q < last + 1 ∧ (t.VisitsCode 0 q ∨
      ∃ s, s ≤ q ∧ t.PassesForCode s (last + 1) ∧ t.VisitsCode s q) := by
  have hk := lt_size_of_getElem? hc
  have hlast : last < t.size := Nat.lt_of_succ_lt hk
  obtain ⟨hu, -⟩ | ⟨r, hr, hopener, hm, hclean⟩ := glanceBackward_right hb hlast
  · have hle := t.lineStart_le_self (last + 1)
    obtain ⟨w, r, hw, hws, hr, hy⟩ :=
      exists_decidesAt 0 hb hlast (t.isLineStart_lineStart (last + 1)) hle
    rw [← openerBefore_of_code hk hcode hline hstray] at hy
    obtain rfl := h.unique (partnerBefore_of_undecided hu hy)
    cases hr with
    | opener h =>
      -- The window that decides starts in code, or it passes for code.
      obtain ⟨hwq, hql, hq, hzero | hpass⟩ :=
        visitsCode_or_passesForCode_of_opener hb hlast hws (hw.trans hle) h
      · exact ⟨Nat.lt_succ_of_le hql, .inl ((hzero.visitsCode_iff_of_le hwq).mpr hq)⟩
      · exact ⟨Nat.lt_succ_of_le hql, .inr ⟨w, hwq, hpass, hq⟩⟩
  · obtain rfl := h.unique (partnerBefore_of_decided hr)
    obtain ⟨⟨-, hqk, hq, -⟩, -⟩ := hopener
    have hsq := t.lineStart_le_self q
    refine ⟨hqk, (visitsCode_or_passesForCode_of_unmarked (fun i _ => hbare i) hcode hc
      hb.closer_plain hqk (sides_eq_forward.mp hq) hb.opener_plain hm hclean).imp_right
        fun ⟨hpass, hcode⟩ => ?_⟩
    exact ⟨t.lineStart q, hsq, hpass, hcode⟩

end Text

end BracketMatching
