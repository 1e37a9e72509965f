/-
The backward search from closers in code.

* `BracketTable.matchBefore_closer_code` — **exactness**: the search finds the last
  opener in plain code with equally many openers and closers between, or there is
  none, if the windows above the closer's line start in code or in comments and
  strings that give themselves away;
* `BracketTable.matchBefore_closer_sound` — **soundness**, wherever windows start:
  an opener that is found is in plain code, or hidden behind a line start that
  passes for code;
* `BracketTable.not_forall_opener_code` — such openers are found: no sign shows that
  the second line of a comment is not code if the comment ends like one that begins
  on that line.

Design note: a window is never trusted for what is before it, only for showing no
contradiction.  Soundness says that nothing else can go wrong.
-/
import BracketMatching.Proofs.BackwardSearch
import BracketMatching.Proofs.FalseStarts

namespace BracketMatching

namespace BracketTable

variable {table : BracketTable} {t : Text} {b : Bracket} {c : Nat} {m : Match}

/-- The backward search finds the last opener of a closer in code, if the line starts
above its own are code or show before it that they are not. -/
theorem exists_matchBefore_closer (hcr : '\r' ∉ t) (hb : b ∈ table.brackets)
    (hc : t[c]? = some b.closer) (hcode : t.VisitsCode 0 c)
    (hline : t.VisitsCode 0 (t.lineStart c)) (hstray : t.NoStrayEnd 0 0 c)
    (hstarts : ∀ s, t.IsLineStart s → s < t.lineStart c →
      t.VisitsCode 0 s ∨ ∃ i, i < c ∧ t.Contradicts s i) :
    ∃ r, Yields (table.matchBefore t (c + 1)) (r.map (Match.ofOffsets c)) ∧
      (t.codeSides b 0).LastOpener ((t.codeSides b 0).height c) 0 c r := by
  cases c with
  | zero => exact ⟨none, yields_matchBefore_closer_zero hb hc, .empty (Nat.le_refl 0)⟩
  | succ last =>
    obtain ⟨r, hr, hopener⟩ := Text.exists_partnerBefore
      (fun i _ => Text.not_bareReturn_of_not_mem hcr 0 i) (usable_of_mem hb) hc hcode hline hstray
      hstarts
    exact ⟨r, yields_matchBefore_closer hb hc hr, hopener⟩

/-! ### Exactness -/

/-- **The backward search is exact for brackets in code.**  The closer is visited in
plain code by the run from the beginning, which meets no stray end of a block comment
before it.  At the start of its line the run is in plain code, at the line starts
above in plain code or in a comment or verbatim string that shows in time that it
is one. -/
theorem matchBefore_closer_code (hcr : '\r' ∉ t) (hb : b ∈ table.brackets)
    (hc : t[c]? = some b.closer) (hcode : t.VisitsCode 0 c) (hstray : t.NoStrayEnd 0 0 c)
    (hline : t.VisitsCode 0 (t.lineStart c))
    (hstarts : ∀ s, t.IsLineStart s → s < t.lineStart c →
      t.VisitsCode 0 s ∨ t.InMildComment s ∨ t.InMildString s) :
    (∀ q, IsGreatest {q | t.CodePairs b q c} q →
      Yields (table.matchBefore t (c + 1)) (some ⟨⟨q, 1⟩, ⟨c, 1⟩⟩)) ∧
    ((∀ q, ¬ t.CodePairs b q c) → Yields (table.matchBefore t (c + 1)) none) := by
  have hu := usable_of_mem hb
  have hle : t.lineStart c ≤ c := t.lineStart_le_self c
  have hplain : t.glyph? c = some .plain := by
    rw [Text.glyph?_of_getElem? hc, hu.closer_plain]
  have hside : t.codeSides b 0 c = some .backward :=
    Text.codeSides_eq_some.mpr ⟨hcode, (Text.sides_eq_backward hu).mpr hc⟩
  obtain ⟨r, hmatch, hlast⟩ := exists_matchBefore_closer hcr hb hc hcode hline hstray
    fun s hs hlt => (hstarts s hs hlt).imp_right fun hmild =>
      Text.exists_contradicts_of_mild hs hmild hcode hplain (hlt.le.trans hle)
  simp only [Text.codePairs_iff hu]
  cases r with
  | none =>
    have hnone := (Sides.lastOpener_none_iff hside).mp hlast
    exact ⟨fun q hq => absurd hq.1 (hnone q), fun _ => hmatch⟩
  | some q' =>
    have hgreatest := (Sides.lastOpener_some_iff hside).mp hlast
    refine ⟨fun q hq => ?_, fun hnone => absurd hgreatest.1 (hnone q')⟩
    obtain rfl := hq.unique hgreatest
    rwa [Option.map_some, Match.ofOffsets_of_gt hq.1.1] at hmatch

/-- A call with a comment and a verbatim string that span lines. -/
def foldedCallText : Text := .ofString "f( /* (\n) */\n@\"(\n\"\") (\n\"\n)"

theorem matchBefore_foldedCallText :
    (∀ s, foldedCallText.IsLineStart s → s < foldedCallText.lineStart 25 →
      foldedCallText.VisitsCode 0 s ∨ foldedCallText.InMildComment s ∨
        foldedCallText.InMildString s) ∧
    IsGreatest {q | foldedCallText.CodePairs ⟨'(', ')'⟩ q 25} 1 ∧
    Yields (standard.matchBefore foldedCallText 26) (some ⟨⟨1, 1⟩, ⟨25, 1⟩⟩) := by
  have hcomment : foldedCallText.InMildComment 8 := ⟨3, 10, by decide +kernel⟩
  have hstring : ∀ s, s = 17 ∨ s = 23 → foldedCallText.InMildString s := by
    rintro s (rfl | rfl)
    · exact ⟨14, 23, by decide +kernel⟩
    · exact ⟨14, 23, by decide +kernel⟩
  have hline : foldedCallText.lineStart 25 = 25 := by decide +kernel
  have hlines : ∀ s < 25, foldedCallText.IsLineStart s →
      foldedCallText.VisitsCode 0 s ∨ s = 8 ∨ s = 17 ∨ s = 23 := by decide +kernel
  have hstarts : ∀ s, foldedCallText.IsLineStart s → s < foldedCallText.lineStart 25 →
      foldedCallText.VisitsCode 0 s ∨ foldedCallText.InMildComment s ∨
        foldedCallText.InMildString s := by
    intro s hs hlt
    rw [hline] at hlt
    rcases hlines s hlt hs with h | rfl | h
    · exact .inl h
    · exact .inr (.inl hcomment)
    · exact .inr (.inr (hstring s h))
  have hlast : ∀ q < 25, 1 < q → ¬ foldedCallText.CodePairs ⟨'(', ')'⟩ q 25 := by
    decide +kernel
  have hgreatest : IsGreatest {q | foldedCallText.CodePairs ⟨'(', ')'⟩ q 25} 1 :=
    ⟨by decide +kernel, fun q hq => Nat.le_of_not_lt fun hlt => hlast q hq.lt hlt hq⟩
  have hb : ⟨'(', ')'⟩ ∈ standard.brackets := by decide
  exact ⟨hstarts, hgreatest, (matchBefore_closer_code (by decide +kernel) hb
    (by decide +kernel) (by decide +kernel) (by decide +kernel) (by decide +kernel) hstarts).1 1
      hgreatest⟩

/-! ### Soundness -/

/-- **The backward search is sound for closers in code.**  The opener that it finds is
in plain code, or it lies behind the start of a line that is not code, but whose
reading as code comes to both brackets in plain code and meets no sign of that. -/
theorem matchBefore_closer_sound (hcr : '\r' ∉ t) (hb : b ∈ table.brackets)
    (hc : t[c]? = some b.closer) (hcode : t.VisitsCode 0 c)
    (hline : t.VisitsCode 0 (t.lineStart c)) (hstray : t.NoStrayEnd 0 0 c)
    (h : Yields (table.matchBefore t (c + 1)) (some m)) :
    m.closing.offset = c ∧ (t.VisitsCode 0 m.opening.offset ∨
      ∃ s, s ≤ m.opening.offset ∧ t.PassesForCode s c ∧ t.VisitsCode s m.opening.offset) := by
  obtain ⟨i, q, b', hi, hb', rfl, hdir⟩ := exists_of_matchBefore h
  obtain rfl : c = i := Nat.succ.inj hi
  -- The character is looked up as the closer of `b`, and as nothing else.
  rcases hdir with ⟨ho, -⟩ | ⟨last, rfl, hc', hq⟩
  · have hopener := lookup_opener hb'
    rw [← Option.some.inj (hc.symm.trans ho), lookup_closer hb] at hopener
    exact nomatch hopener
  · have hcloser := lookup_closer hb'
    rw [← Option.some.inj (hc.symm.trans hc'), lookup_closer hb] at hcloser
    obtain rfl : b = b' := (Prod.mk.inj (Option.some.inj hcloser)).2
    obtain ⟨hlt, hsound⟩ := Text.partnerBefore_sound
      (fun i _ => Text.not_bareReturn_of_not_mem hcr 0 i) (usable_of_mem hb) hc hcode hline
      (fun i h1 => hstray i (Nat.zero_le i)) hq
    rw [Match.ofOffsets_of_gt hlt]
    exact ⟨rfl, hsound⟩

/-- A comment whose second line looks like code before a comment of its own. -/
def nestedCommentText : Text := .ofString "/*\n( /* */\n)"

theorem matchBefore_nestedCommentText :
    Yields (standard.matchBefore nestedCommentText 12) (some ⟨⟨3, 1⟩, ⟨11, 1⟩⟩) ∧
    ∃ s, s ≤ 3 ∧ nestedCommentText.PassesForCode s 11 ∧ nestedCommentText.VisitsCode s 3 := by
  have hmatch : Yields (standard.matchBefore nestedCommentText 12) (some ⟨⟨3, 1⟩, ⟨11, 1⟩⟩) := by
    decide +kernel
  have hhidden : ¬ nestedCommentText.VisitsCode 0 3 := by decide +kernel
  have hb : ⟨'(', ')'⟩ ∈ standard.brackets := by decide
  exact ⟨hmatch, (matchBefore_closer_sound (by decide +kernel) hb (by decide +kernel)
    (by decide +kernel) (by decide +kernel) (by decide +kernel) hmatch).2.resolve_left hhidden⟩

/-- The opener of a closer in code need not be in code. -/
theorem not_forall_opener_code :
    ¬ ∀ (table : BracketTable) (t : Text) (b : Bracket) (c : Nat) (m : Match), '\r' ∉ t →
      b ∈ table.brackets → t[c]? = some b.closer → t.VisitsCode 0 c →
      t.VisitsCode 0 (t.lineStart c) → t.NoStrayEnd 0 0 c →
      Yields (table.matchBefore t (c + 1)) (some m) →
      m.closing.offset = c ∧ t.VisitsCode 0 m.opening.offset := by
  intro h
  have hopener := (h standard nestedCommentText ⟨'(', ')'⟩ 11 ⟨⟨3, 1⟩, ⟨11, 1⟩⟩
    (by decide +kernel) (by decide) (by decide +kernel) (by decide +kernel) (by decide +kernel)
    (by decide +kernel) (by decide +kernel)).2
  exact absurd hopener (by decide +kernel)

end BracketTable

end BracketMatching
