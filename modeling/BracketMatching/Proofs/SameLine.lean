/-
On one line, the two scans are inverse to each other.

Let an opener and a closer behind it stand on one line, where the run that starts as code
with the line visits both of them in code, or both in literals, and meets nothing before
the closer that stops a reading (`Text.SharesLine`).  The forward scan from the opener finds
the closer exactly if the backward scan from the closer finds the opener, and both do
exactly if the brackets in between are balanced and, in literals, if the run stays in one.

The two halves of the proof meet at the pairs of Proofs/Nesting.lean:

* `Text.yields_closerAfter_iff` — the forward scan finds the first closer that pairs up
  with the opener;
* `Text.yields_openerBefore_iff` — the backward scan finds the last opener that pairs up
  with the closer;
* `Text.SharesLine.yields_iff` — these are the same pairs;
* `BracketTable.closerAfter_iff_openerBefore` — **the two scans are inverse to each other**,
  for the brackets of a table in a text without carriage returns, where a stray end of a
  block comment is all that could stop a reading.

In code, the backward scan may look for the opener on earlier lines, from where the line
itself may read differently.  But a window that shows an opener on the line has come to it
in code, and reads on from there as the line does.
-/
import BracketMatching.Proofs.BackwardSearch
import BracketMatching.Proofs.BalancedWord
import BracketMatching.Proofs.ForwardSearch
import BracketMatching.Proofs.LiteralReading

namespace BracketMatching

namespace Text

variable {t : Text} {b : Bracket} {region : Region} {ctx : Context} {o k i last start : Nat}

/-! ### The forward scan -/

/-- **The forward scan on a line** finds the first closer that pairs up with the opener. -/
theorem yields_closerAfter_iff (hb : b.Usable) (ho : t[o]? = some b.opener)
    (hlt : o + 1 < t.size) (hin : t.VisitsIn region (t.lineStart o) o)
    (hstray : t.NoStrayEnd (t.lineStart o) (t.lineStart o) o) :
    Yields (t.closerAfter b (o + 1)) (some k) ↔
      IsLeast {k | (t.regionSides b region (t.lineStart o)).Pairs o k} k ∧
        (region = .literal → t.StaysInLiteral (t.lineStart o) o k) := by
  have hside : t.regionSides b region (t.lineStart o) o = some .forward :=
    regionSides_eq_some.mpr ⟨hin, sides_eq_forward.mpr ho⟩
  obtain ⟨ctx, hv, hctx⟩ := hin
  have hlit : region = .literal → ctx.inLiteral = true := by
    rintro rfl
    exact hctx
  have hstep : t.step ctx o = .ok (.one ctx) := step_of_plain ho hb.opener_plain
  have hnext : t.Visits (t.lineStart o) (o + 1) ctx := hv.step hstep
  obtain ⟨r, hr, hiff⟩ := findsInRegion hb hnext hlit (Int.add_zero _).symm
  have hsite : t.siteAt (t.lineStart (o + 1)) (o + 1) = .ok (.ofContext ctx) := by
    rw [lineStart_succ_of_plain ho hb.opener_plain]
    exact siteAt_of_visits hnext (hstray.succ_of_plain ho hb.opener_plain)
  have hyields : Yields (t.closerAfter b (o + 1)) r := by
    rw [closerAfter, if_pos hlt, hsite]
    simp only [bind, Except.bind, Site.region?_ofContext hnext.sole hctx, hr]
    exact .quiet r
  have hstays : (region = .literal → t.StaysInLiteral (t.lineStart o) (o + 1) k) ↔
      (region = .literal → t.StaysInLiteral (t.lineStart o) o k) :=
    ⟨fun h hreg => (h hreg).cons hv hstep (hlit hreg),
      fun h hreg => (h hreg).mono (Nat.le_succ o) (le_refl k)⟩
  rw [← Sides.firstCloser_some_iff hside, ← hstays, ← hiff]
  exact ⟨fun h => hyields.unique h, fun h => h ▸ hyields⟩

/-! ### The backward scan -/

/-- A stray end of a block comment is all that stops the reading of a line without
carriage returns. -/
theorem not_stopsAt_lineStart (hcr : '\r' ∉ t) (hk : k ≤ t.size)
    (hstray : t.NoStrayEnd (t.lineStart k) (t.lineStart k) k) (hi : i < k) :
    ¬ t.StopsAt (t.lineStart k) i := by
  rintro ⟨ctx, hv, ⟨hc, hend⟩ | ⟨-, ⟨c, hget, hbreak⟩, -⟩⟩
  · rw [hstray i hv.le hi ⟨ctx, hv, hc⟩] at hend
    exact nomatch hend
  · rcases Glyph.isLineBreak_ofChar_iff.mp hbreak with rfl | rfl
    · exact ne_lineFeed_of_lineStart_le hv.le (by omega) hget
    · exact hcr (Array.mem_of_getElem? hget)

/-- A reading that nothing stops meets no stray end of a block comment. -/
theorem noStrayEnd_of_not_stopsAt (h : ∀ i, i < k → ¬ t.StopsAt start i) :
    t.NoStrayEnd start start k := by
  rintro i - hi ⟨ctx, hv, hc⟩
  rw [← Bool.not_eq_true]
  exact fun hend => h i hi ⟨ctx, hv, .inl ⟨hc, hend⟩⟩

theorem yields_openerBefore_iff_of_code (hb : b.Usable)
    (hc : t[last + 1]? = some b.closer) (hso : t.lineStart (last + 1) ≤ o)
    (ho : t.VisitsCode (t.lineStart (last + 1)) o)
    (hcode : t.VisitsCode (t.lineStart (last + 1)) (last + 1))
    (hgo : ∀ i, i < last + 1 → ¬ t.StopsAt (t.lineStart (last + 1)) i) :
    Yields (t.openerBefore b last) (some o) ↔
      IsGreatest {o | (t.codeSides b (t.lineStart (last + 1))).Pairs o (last + 1)} o := by
  have hk := lt_size_of_getElem? hc
  have hlast : last < t.size := Nat.lt_of_succ_lt hk
  have hle := t.lineStart_le_self (last + 1)
  have hside : t.codeSides b (t.lineStart (last + 1)) (last + 1) = some .backward :=
    codeSides_eq_some.mpr ⟨hcode, (sides_eq_backward hb).mpr hc⟩
  rw [← Sides.lastOpener_some_iff hside,
    openerBefore_of_site hk (siteAt_of_visitsCode hcode (noStrayEnd_of_not_stopsAt hgo))]
  constructor
  · intro h
    obtain ⟨w, r, hw, -, hdecides, hr⟩ :=
      exists_decidesAt 0 hb hlast (t.isLineStart_lineStart (last + 1)) hle
    obtain rfl := hr.unique h
    obtain ⟨hread⟩ := hdecides
    obtain ⟨-, -, hopener⟩ := (readWindow_eq_opener_iff hb hlast (hw.trans hle)).mp hread
    have hwo := (codeSides_eq_some.mp hopener.1.2.2.1).1
    refine (hopener.congr fun j _ _ hj => ?_).of_le w.zero_le
    -- From the opener on, the window and the line are the same run.
    rw [hwo.codeSides_eq (hj o rfl), ho.codeSides_eq (hj o rfl)]
  · intro h
    exact DecidesAt.yields (.opener ((readWindow_eq_opener_iff hb hlast hle).mpr
      ⟨fun i hi => hgo i (Nat.lt_succ_of_le hi), hcode, h.of_ge (Nat.zero_le _) hso⟩))

theorem yields_openerBefore_iff_of_literal (hb : b.Usable)
    (hc : t[last + 1]? = some b.closer)
    (hlit : t.VisitsIn .literal (t.lineStart (last + 1)) (last + 1))
    (hgo : ∀ i, i < last + 1 → ¬ t.StopsAt (t.lineStart (last + 1)) i) :
    Yields (t.openerBefore b last) (some o) ↔
      IsGreatest
        {o | (t.regionSides b .literal (t.lineStart (last + 1))).Pairs o (last + 1)} o ∧
        t.StaysInLiteral (t.lineStart (last + 1)) o (last + 1) := by
  have hk := lt_size_of_getElem? hc
  have hside : t.regionSides b .literal (t.lineStart (last + 1)) (last + 1) = some .backward :=
    regionSides_eq_some.mpr ⟨hlit, (sides_eq_backward hb).mpr hc⟩
  obtain ⟨r, hr, hiff⟩ := readsLiteral hb (Nat.lt_of_succ_lt hk)
    (fun i hi => hgo i (Nat.lt_succ_of_le hi)) hlit
  obtain ⟨ctx, hv, hctx⟩ := hlit
  have hsite := siteAt_of_visits hv (noStrayEnd_of_not_stopsAt hgo)
  have hyields : Yields (t.openerBefore b last) r := by
    rw [openerBefore_of_siteAt hk hsite]
    simp only [bind, Except.bind, Site.region?_ofContext hv.sole hctx, hr]
    cases r <;> exact .quiet _
  rw [← Sides.lastOpener_some_iff hside, ← hiff]
  exact ⟨fun h => hyields.unique h, fun h => h ▸ hyields⟩

/-- **The backward scan on a line** finds the last opener that pairs up with the closer. -/
theorem yields_openerBefore_iff (hb : b.Usable)
    (hc : t[last + 1]? = some b.closer) (hstart : t.lineStart (last + 1) = start)
    (hso : start ≤ o) (ho : t.VisitsIn region start o) (hin : t.VisitsIn region start (last + 1))
    (hgo : ∀ i, i < last + 1 → ¬ t.StopsAt start i) :
    Yields (t.openerBefore b last) (some o) ↔
      IsGreatest {o | (t.regionSides b region start).Pairs o (last + 1)} o ∧
        (region = .literal → t.StaysInLiteral start o (last + 1)) := by
  subst hstart
  cases region with
  | code =>
    rw [yields_openerBefore_iff_of_code hb hc hso ho hin hgo, regionSides_code]
    exact (and_iff_left nofun).symm
  | literal =>
    rw [yields_openerBefore_iff_of_literal hb hc hin hgo]
    exact and_congr_right fun _ => ⟨fun h _ => h, fun h => h rfl⟩

/-! ### Both scans -/

/-- An opener and a closer behind it on one line, where the run that starts as code with
the line visits both in the region, and nothing stops a reading before the closer. -/
structure SharesLine (t : Text) (b : Bracket) (region : Region) (o k : Nat) : Prop where
  opener : t[o]? = some b.opener
  closer : t[k]? = some b.closer
  lt : o < k
  no_lineFeed : ∀ i, o ≤ i → i < k → t[i]? ≠ some '\n'
  opener_in : t.VisitsIn region (t.lineStart o) o
  closer_in : t.VisitsIn region (t.lineStart o) k
  goes_on : ∀ i, i < k → ¬ t.StopsAt (t.lineStart o) i

namespace SharesLine

theorem lineStart_eq (h : t.SharesLine b region o k) : t.lineStart k = t.lineStart o :=
  lineStart_eq_of_no_lineFeed h.lt.le (lt_size_of_getElem? h.closer).le h.no_lineFeed

theorem side_opener (h : t.SharesLine b region o k) :
    t.regionSides b region (t.lineStart o) o = some .forward :=
  regionSides_eq_some.mpr ⟨h.opener_in, sides_eq_forward.mpr h.opener⟩

theorem side_closer (h : t.SharesLine b region o k) (hb : b.Usable) :
    t.regionSides b region (t.lineStart o) k = some .backward :=
  regionSides_eq_some.mpr ⟨h.closer_in, (sides_eq_backward hb).mpr h.closer⟩

/-- **On one line, both scans find the same pairs**, which are the first of their opener and
the last of their closer. -/
theorem yields_iff (h : t.SharesLine b region o (last + 1)) (hb : b.Usable) :
    (Yields (t.closerAfter b (o + 1)) (some (last + 1)) ↔
      IsLeast {k | (t.regionSides b region (t.lineStart o)).Pairs o k} (last + 1) ∧
        (region = .literal → t.StaysInLiteral (t.lineStart o) o (last + 1))) ∧
    (Yields (t.openerBefore b last) (some o) ↔
      IsLeast {k | (t.regionSides b region (t.lineStart o)).Pairs o k} (last + 1) ∧
        (region = .literal → t.StaysInLiteral (t.lineStart o) o (last + 1))) := by
  have hk := lt_size_of_getElem? h.closer
  have hlt := h.lt
  constructor
  · exact yields_closerAfter_iff hb h.opener (by omega) h.opener_in
      (noStrayEnd_of_not_stopsAt fun i hi => h.goes_on i (hi.trans hlt))
  · rw [Sides.isLeast_pairs_iff_isGreatest]
    exact yields_openerBefore_iff hb h.closer h.lineStart_eq (t.lineStart_le_self o) h.opener_in
      h.closer_in h.goes_on

end SharesLine

end Text

namespace BracketTable

variable {table : BracketTable} {t : Text} {b : Bracket} {region : Region} {o last : Nat}

/-- **On one line, the two scans are inverse to each other**: each of them finds the one
bracket from the other exactly if what the run of the line visits in between, in the same
region, is balanced; in literals, the run has to stay in one, too. -/
theorem closerAfter_iff_openerBefore (hcr : '\r' ∉ t) (hb : b ∈ table.brackets)
    (ho : t[o]? = some b.opener) (hc : t[last + 1]? = some b.closer) (hlt : o < last + 1)
    (hline : ∀ i, o ≤ i → i < last + 1 → t[i]? ≠ some '\n')
    (hoin : t.VisitsIn region (t.lineStart o) o)
    (hcin : t.VisitsIn region (t.lineStart o) (last + 1))
    (hstray : t.NoStrayEnd (t.lineStart o) (t.lineStart o) (last + 1)) :
    (Yields (t.closerAfter b (o + 1)) (some (last + 1)) ↔
      Yields (t.openerBefore b last) (some o)) ∧
    (Yields (t.openerBefore b last) (some o) ↔
      Balanced ((t.regionSides b region (t.lineStart o)).word (o + 1) (last + 1)) ∧
        (region = .literal → t.StaysInLiteral (t.lineStart o) o (last + 1))) := by
  have hu := usable_of_mem hb
  have hk := (Text.lt_size_of_getElem? hc).le
  have hsame := Text.lineStart_eq_of_no_lineFeed hlt.le hk hline
  have h : t.SharesLine b region o (last + 1) :=
    ⟨ho, hc, hlt, hline, hoin, hcin, fun i hi =>
      hsame ▸ Text.not_stopsAt_lineStart hcr hk (hsame ▸ hstray) hi⟩
  obtain ⟨hforward, hbackward⟩ := h.yields_iff hu
  rw [hforward, hbackward,
    Sides.isLeast_pairs_iff_balanced h.side_opener (h.side_closer hu) hlt]
  exact ⟨Iff.rfl, Iff.rfl⟩

/-- A string with an escaped quote and a nested pair of brackets, before a bracket that
is a character literal. -/
def quotedPairText : Text := .ofString "s = \"(a\\\"(b))\" + ')'"

theorem closerAfter_iff_openerBefore_quotedPairText :
    ('\r' ∉ quotedPairText ∧ quotedPairText[5]? = some '(' ∧ quotedPairText[12]? = some ')' ∧
      (∀ i, 5 ≤ i → i < 12 → quotedPairText[i]? ≠ some '\n') ∧
      quotedPairText.VisitsIn .literal (quotedPairText.lineStart 5) 5 ∧
      quotedPairText.VisitsIn .literal (quotedPairText.lineStart 5) 12 ∧
      quotedPairText.NoStrayEnd (quotedPairText.lineStart 5) (quotedPairText.lineStart 5) 12) ∧
    Balanced ((quotedPairText.regionSides ⟨'(', ')'⟩ .literal
      (quotedPairText.lineStart 5)).word 6 12) ∧
    quotedPairText.StaysInLiteral (quotedPairText.lineStart 5) 5 12 ∧
    Yields (quotedPairText.closerAfter ⟨'(', ')'⟩ 6) (some 12) ∧
    Yields (quotedPairText.openerBefore ⟨'(', ')'⟩ 11) (some 5) := by
  have hb : ⟨'(', ')'⟩ ∈ standard.brackets := by decide
  have hcr : '\r' ∉ quotedPairText := by decide +kernel
  have ho : quotedPairText[5]? = some '(' := by decide +kernel
  have hc : quotedPairText[11 + 1]? = some ')' := by decide +kernel
  have hline : ∀ i, 5 ≤ i → i < 12 → quotedPairText[i]? ≠ some '\n' := by
    have hline' : ∀ i < 12, 5 ≤ i → quotedPairText[i]? ≠ some '\n' := by decide +kernel
    exact fun i h1 h2 => hline' i h2 h1
  have hoin : quotedPairText.VisitsIn .literal (quotedPairText.lineStart 5) 5 := by
    decide +kernel
  have hcin : quotedPairText.VisitsIn .literal (quotedPairText.lineStart 5) (11 + 1) := by
    decide +kernel
  have hstray : quotedPairText.NoStrayEnd (quotedPairText.lineStart 5)
      (quotedPairText.lineStart 5) (11 + 1) := by decide +kernel
  have hword : (quotedPairText.regionSides ⟨'(', ')'⟩ .literal
      (quotedPairText.lineStart 5)).word 6 12 = [.forward, .backward] := by decide +kernel
  have hbalanced : Balanced ((quotedPairText.regionSides ⟨'(', ')'⟩ .literal
      (quotedPairText.lineStart 5)).word 6 12) := hword ▸ .nest .nil .nil
  have hstays : quotedPairText.StaysInLiteral (quotedPairText.lineStart 5) 5 12 := by
    decide +kernel
  obtain ⟨hiff, hexact⟩ :=
    closerAfter_iff_openerBefore hcr hb ho hc (by decide) hline hoin hcin hstray
  have hopener := hexact.mpr ⟨hbalanced, fun _ => hstays⟩
  exact ⟨⟨hcr, ho, hc, hline, hoin, hcin, hstray⟩, hbalanced, hstays, hiff.mpr hopener, hopener⟩

end BracketTable

end BracketMatching
