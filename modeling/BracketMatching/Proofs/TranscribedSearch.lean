/-
Searches in transcripts: the partner of a bracket is found at its place.

The scans and glances answer in a transcript what they answer in the text, with the places
of what they find (`Text.Transcript.closerFrom_pos` and its like).  This file carries that
up to the searches for the partner of a bracket.

* `Text.reaches_of_region?` — where a scan starts, the run from the start of its line
  arrives, and in the context that the scan starts in;
* `Text.ScanGetsTo`, `Text.ReadsWindow` — how far a forward scan gets, and which windows a
  backward scan reads;
* `Text.closerAfter_pos`, `Text.Transcript.openerBefore_pos` — the scans;
* `Text.partnerAfter_pos`, `Text.Transcript.partnerBefore_pos` — glance and scan.

Design note: what is asked of escapes is asked of the readings that take place only, and
as far as they get: of the scan from an opener, of the windows of a closer, and of neither
where a glance decides.
-/
import BracketMatching.Proofs.TranscribedScans
import BracketMatching.Proofs.BackwardSearch
import Mathlib.Order.MinMax

namespace BracketMatching

theorem Context.sole_code : code.Sole := by
  constructor <;> decide

/-- A scan starts in the context that its site is of, which its region admits. -/
theorem Context.Sole.eq_of_region? {ctx ctx' : Context} {region : Region} (h : ctx.Sole)
    (hregion : (Site.ofContext ctx).region? = some (region, ctx')) :
    ctx' = ctx ∧ region.admits ctx' = true := by
  unfold Site.ofContext at hregion
  split at hregion
  · cases hregion
  split at hregion
  · cases hregion
  split at hregion
  · next hlit =>
    cases hregion
    exact ⟨rfl, hlit⟩
  · next hblock hline hlit =>
    cases hregion
    refine ⟨(h.eq_code ?_).symm, rfl⟩
    simp_all [Context.isCode, Context.inComment]

/-- A glance decides, or does not. -/
theorem Glance.eq_undecided_or_decided (glance : Glance) :
    glance = .undecided ∨ ∃ r, glance = .decided r := by
  cases glance with
  | hit k => exact .inr ⟨some k, rfl⟩
  | absent => exact .inr ⟨none, rfl⟩
  | undecided => exact .inl rfl

theorem Glance.map_decided (pos : Nat → Nat) (r : Option Nat) :
    (Glance.decided r).map pos = .decided (r.map pos) := by
  cases r <;> rfl

theorem Verdict.offset?_map (pos : Nat → Nat) (verdict : Verdict) :
    (verdict.map pos).offset? = verdict.offset?.map pos := by
  cases verdict <;> rfl

/-- A match, in a text where each offset is at another place. -/
def Match.map (pos : Nat → Nat) (found : Match) : Match where
  opening := ⟨pos found.opening.offset, found.opening.length⟩
  closing := ⟨pos found.closing.offset, found.closing.length⟩

theorem Match.map_ofOffsets {pos : Nat → Nat} (h : Monotone pos) (i j : Nat) :
    (ofOffsets i j).map pos = ofOffsets (pos i) (pos j) := by
  simp only [map, ofOffsets, h.map_min, h.map_max]

theorem Match.map_map_ofOffsets {pos : Nat → Nat} (h : Monotone pos) (i : Nat) (r : Option Nat) :
    (r.map (ofOffsets i)).map (map pos) = (r.map pos).map (ofOffsets (pos i)) := by
  cases r with
  | none => rfl
  | some j => exact congrArg some (map_ofOffsets h i j)

namespace Text

variable {b : Bracket} {t t' : Text} {pos : Nat → Nat} {last r : Option Nat} {region : Region}
  {ctx ctx' : Context} {i l l' n round start w : Nat} {site : Site}

/-! ### The forward scan -/

/-- A scan that starts behind a character without a meaning starts in the context in which
the run of its line arrives there, in the region. -/
theorem reaches_of_region? (hg : t.glyphBefore? n = some .plain) (hin : i ≤ n) (hsole : ctx.Sole)
    (hsite : t.siteFrom n ctx i = .ok site) (hregion : site.region? = some (region, ctx')) :
    t.Reaches i ctx n ctx' ∧ region.admits ctx' = true := by
  induction hm : n - i using Nat.strong_induction_on generalizing i ctx with
  | _ m ih =>
  by_cases hlt : i < n
  · rw [siteFrom, if_pos hlt] at hsite
    split at hsite
    · obtain rfl := Except.ok.inj hsite
      cases hregion
    rcases hs : t.step ctx i with f | s
    · rw [hs] at hsite
      cases hsite
    rw [hs] at hsite
    have hpos := s.consumed_pos
    have hsole' : s.next.Sole := by
      obtain ⟨c, -, rfl⟩ := exists_getElem?_of_step hs
      exact hsole.step
    -- The character before `n` has no meaning, so no step passes over `n`.
    have hle : i + s.consumed ≤ n := by
      rcases Nat.lt_or_eq_of_le (Nat.succ_le_of_lt hlt) with hlt' | rfl
      · have htwo := consumed_le_two hs
        omega
      · obtain ⟨c, hget, -⟩ := exists_getElem?_of_step hs
        have hplain : Glyph.ofChar c = .plain :=
          Option.some.inj ((glyph?_of_getElem? hget).symm.trans hg)
        obtain rfl : .one ctx = s := Except.ok.inj ((step_of_plain hget hplain).symm.trans hs)
        exact le_refl _
    obtain ⟨hrun, hadmits⟩ := ih _ (by omega) hle hsole' hsite rfl
    exact ⟨(Reaches.here.step hs).trans hrun, hadmits⟩
  · obtain rfl : i = n := Nat.le_antisymm hin (Nat.le_of_not_lt hlt)
    rw [siteFrom, if_neg hlt] at hsite
    obtain rfl := Except.ok.inj hsite
    obtain ⟨rfl, hadmits⟩ := hsole.eq_of_region? hregion
    exact ⟨.here, hadmits⟩

theorem yields_closerAfter_of_region (hlt : start < t.size)
    (hsite : t.siteAt (t.lineStart start) start = .ok site)
    (hregion : site.region? = some (region, ctx))
    (hr : t.closerFrom b region 1 ctx start = .ok r) : Yields (t.closerAfter b start) r := by
  rw [closerAfter, if_pos hlt, hsite]
  simp only [bind, Except.bind, hregion, hr]
  exact .quiet r

theorem yields_closerAfter_of_comment (hlt : start < t.size)
    (hsite : t.siteAt (t.lineStart start) start = .ok site) (hregion : site.region? = none) :
    Yields (t.closerAfter b start) none := by
  rw [closerAfter, if_pos hlt, hsite]
  simp only [bind, Except.bind, hregion]
  exact ⟨_, rfl⟩

theorem closerAfter_of_size_le (h : t.size ≤ start) :
    t.closerAfter b start = .ok (.quiet none) := by
  rw [closerAfter, if_neg (Nat.not_lt.mpr h)]

/-- A forward scan from `start` gets to `i`, if it finds no closer before: it does not start
in a comment, and has not left the literal that it may have started in. -/
def ScanGetsTo (t : Text) (start i : Nat) : Prop :=
  ∃ site region ctx, t.siteAt (t.lineStart start) start = .ok site ∧
    site.region? = some (region, ctx) ∧
      (region = .literal → t.StaysInLiteral (t.lineStart start) start i)

/-- Where a forward scan from `start`, which finds `r`, gets to, it reads no escape that a
carriage return tears. -/
def ScanKeepsEscapes (t : Text) (pos : Nat → Nat) (r : Option Nat) (start : Nat) : Prop :=
  KeepsEscapes t pos (fun j => t.ScanGetsTo start j ∧ UpTo r (j + 1)) (t.lineStart start) .code

/-- **The forward scan in a transcript.** -/
theorem closerAfter_pos (h : Transcript b t t' pos r) (hb : b.Usable)
    (hg : t.glyphBefore? start = some .plain)
    (hkeep : t.ScanKeepsEscapes pos r start)
    (hr : Yields (t.closerAfter b start) r) :
    Yields (t'.closerAfter b (pos start)) (r.map pos) := by
  have hup : UpTo r start := (ensures_closerAfter.of_yields hr).upTo
  by_cases hlt : start < t.size
  · have hlt' := h.pos_lt_size hup hlt
    obtain ⟨site, hsite⟩ : ∃ site, t.siteAt (t.lineStart start) start = .ok site :=
      (ensures_siteFrom hlt.le).exists_eq_ok
    have hsite' := h.siteAt_pos hup hlt.le hsite
    rcases hregion : site.region? with _ | ⟨region, ctx⟩
    · obtain rfl := hr.unique (yields_closerAfter_of_comment hlt hsite hregion)
      exact yields_closerAfter_of_comment hlt' hsite' hregion
    · obtain ⟨hrun, hadmits⟩ :=
        reaches_of_region? hg (t.lineStart_le_self start) Context.sole_code hsite hregion
      have hstay : region = .literal → t.StaysInLiteral (t.lineStart start) start start := by
        rintro rfl
        exact .single hrun hadmits
      have hkeep' := KeepsEscapes.of_reaches hkeep hrun
      obtain ⟨found, hfound⟩ := (ensures_closerFrom Nat.one_pos).exists_eq_ok
      obtain rfl := hr.unique (yields_closerAfter_of_region hlt hsite hregion hfound)
      exact yields_closerAfter_of_region hlt' hsite' hregion
        (closerFrom_pos h hb Nat.one_pos hrun hstay
          (hkeep'.mono fun j hj => ⟨⟨site, region, ctx, hsite, hregion, hj.2⟩, hj.1⟩) hfound)
  · have hsize := Nat.le_of_not_lt hlt
    rw [closerAfter_of_size_le hsize] at hr
    obtain rfl := hr.unique (.quiet none)
    rw [closerAfter_of_size_le (h.size_le_pos hup hsize)]
    exact .quiet none

/-- Glance and scan forward, in a transcript. -/
theorem partnerAfter_pos (h : Transcript b t t' pos none) (hb : b.Usable)
    (hg : t.glyphBefore? start = some .plain)
    (hkeep : t.glanceForward b start = .ok .undecided → t.ScanKeepsEscapes pos r start)
    (hr : Yields (t.partnerAfter b start) r) :
    Yields (t'.partnerAfter b (pos start)) (r.map pos) := by
  obtain ⟨glance, hglance⟩ : ∃ glance, t.glanceForward b start = .ok glance :=
    ensures_glanceForward.exists_eq_ok
  have hglance' : t'.glanceForward b (pos start) = .ok (glance.map pos) := by
    rw [glanceForward, glanceForwardFrom_pos h hb Nat.one_pos, ← glanceForward, hglance]
    rfl
  rcases glance.eq_undecided_or_decided with rfl | ⟨r', rfl⟩
  · obtain ⟨r', hscan⟩ : ∃ r', Yields (t.closerAfter b start) r' :=
      ensures_closerAfter.exists_yields
    obtain rfl := hr.unique (partnerAfter_of_undecided hglance hscan)
    exact partnerAfter_of_undecided hglance' (closerAfter_pos h.mono hb hg (hkeep hglance) hscan)
  · obtain rfl := hr.unique (partnerAfter_of_decided hglance)
    rw [Glance.map_decided] at hglance'
    exact partnerAfter_of_decided hglance'

/-! ### The backward scan -/

/-- A backward scan from the closer just after `last` reads the window after `n` widenings:
the closer is code, seen from its line, and all windows before have left the answer open. -/
def ReadsWindow (t : Text) (b : Bracket) (last n : Nat) : Prop :=
  ∀ m, m < n → t.siteAt (t.lineStart (last + 1)) (last + 1) = .ok .code ∧
    t.LeavesOpen b last (t.windowStart 0 (t.lineStart (last + 1)) m)

/-- Where the reading of the window from `w` gets to, up to `last`, it reads no escape that a
carriage return tears. -/
def WindowKeepsEscapes (t : Text) (pos : Nat → Nat) (last w : Nat) : Prop :=
  KeepsEscapes t pos (fun j => j ≤ last ∧ t.WindowGetsTo w j) w .code

theorem readsWindow_zero (t : Text) (b : Bracket) (last : Nat) : t.ReadsWindow b last 0 :=
  nofun

theorem yields_openerBefore_of_literal (hlt : l + 1 < t.size)
    (hsite : t.siteAt (t.lineStart (l + 1)) (l + 1) = .ok (.literal ctx)) {verdict : Verdict}
    (hv : t.readWindow b .literal (t.lineStart (l + 1)) l = .ok verdict) :
    Yields (t.openerBefore b l) verdict.offset? := by
  rw [openerBefore_of_siteAt hlt hsite]
  simp only [bind, Except.bind, Site.region?, hv]
  cases verdict <;> exact .quiet _

theorem yields_openerBefore_of_comment (hlt : l + 1 < t.size)
    (hsite : t.siteAt (t.lineStart (l + 1)) (l + 1) = .ok site) (hregion : site.region? = none) :
    Yields (t.openerBefore b l) none := by
  rw [openerBefore_of_siteAt hlt hsite]
  simp only [hregion]
  exact ⟨_, rfl⟩

namespace Transcript

variable (h : Transcript b t t' pos last) (hb : b.Usable) (hzero : pos 0 = 0)
  (hup : UpTo last (l + 1)) (hl : pos (l + 1) = l' + 1)
include h hb hzero hup hl

theorem readWindow_pos (hlt : l < t.size) (hkeep : t.WindowKeepsEscapes pos l w)
    {verdict : Verdict} (hv : t.readWindow b region w l = .ok verdict) :
    t'.readWindow b region (pos w) l' = .ok (verdict.map pos) := by
  rw [readWindow] at hv
  show t'.readWindowFrom b region (pos w) l' (List.map pos []) .code (pos w) = _
  rw [h.readWindowFrom_pos hb hzero hup hlt hl .here (t.windowGetsTo_start w) hkeep, hv]
  rfl

theorem decidesAt_pos (hlt : l < t.size) (hkeep : t.WindowKeepsEscapes pos l w)
    (hr : t.DecidesAt b l w r) : t'.DecidesAt b l' (pos w) (r.map pos) := by
  cases hr with
  | opener hv => exact .opener (h.readWindow_pos hb hzero hup hl hlt hkeep hv)
  | outOfContext hv => exact .outOfContext (h.readWindow_pos hb hzero hup hl hlt hkeep hv)
  | noOpener hv hw =>
    exact .noOpener (h.readWindow_pos hb hzero hup hl hlt hkeep hv) (hw ▸ hzero)

/-- The windows of a transcript start at the places of those of the text. -/
theorem openerWidening_pos (hlt : l < t.size) (hw : w ≤ l + 1)
    (hkeep : ∀ n, (∀ m, m < n → t.LeavesOpen b l (t.windowStart round w m)) →
      t.WindowKeepsEscapes pos l (t.windowStart round w n))
    (hr : Yields (t.openerWidening b l round w) r) :
    Yields (t'.openerWidening b l' round (pos w)) (r.map pos) := by
  induction w using Nat.strong_induction_on generalizing round with
  | _ w ih =>
  have hfirst : t.WindowKeepsEscapes pos l w := hkeep 0 nofun
  rcases decidesAt_or_leavesOpen hb hlt hw with ⟨r', hdec⟩ | hopen
  · obtain rfl := hr.unique hdec.yields
    exact (h.decidesAt_pos hb hzero hup hl hlt hfirst hdec).yields
  · obtain ⟨hne, hv⟩ := id hopen
    have hne' : pos w ≠ 0 := fun heq => hne ((h.pos_eq_zero_iff hzero).mp heq)
    have hv' := hv.imp (h.readWindow_pos hb hzero hup hl hlt hfirst)
      (h.readWindow_pos hb hzero hup hl hlt hfirst)
    have hwider : t'.widerStart round (pos w) = pos (t.widerStart round w) :=
      h.lineStartAbove_pos hzero (hup.mono hw) (by omega) _
    have hlt' := t.widerStart_lt round hne
    obtain ⟨r', hscan⟩ :
        ∃ r', Yields (t.openerWidening b l (round + 1) (t.widerStart round w)) r' :=
      (ensures_openerWidening hlt).exists_yields
    obtain rfl := hr.unique (yields_openerWidening_of_wider hne hv hscan)
    refine yields_openerWidening_of_wider hne' hv' ?_
    rw [hwider]
    refine ih _ hlt' (hlt'.le.trans hw) (fun n hn => hkeep (n + 1) fun m hm => ?_) hscan
    cases m with
    | zero => exact hopen
    | succ m => exact hn m (Nat.lt_of_succ_lt_succ hm)

/-- **The backward scan in a transcript.** -/
theorem openerBefore_pos (hlt : l + 1 < t.size)
    (hkeep : ∀ n, t.ReadsWindow b l n →
      t.WindowKeepsEscapes pos l (t.windowStart 0 (t.lineStart (l + 1)) n))
    (hr : Yields (t.openerBefore b l) r) : Yields (t'.openerBefore b l') (r.map pos) := by
  have hlt' : l' + 1 < t'.size := hl ▸ h.pos_lt_size hup hlt
  have hlast : l < t.size := Nat.lt_of_succ_lt hlt
  have hline : t'.lineStart (l' + 1) = pos (t.lineStart (l + 1)) := by
    rw [← hl, h.lineStart_pos hup hlt.le]
  have hfirst : t.WindowKeepsEscapes pos l (t.lineStart (l + 1)) :=
    hkeep 0 (t.readsWindow_zero b l)
  obtain ⟨site, hsite⟩ : ∃ site, t.siteAt (t.lineStart (l + 1)) (l + 1) = .ok site :=
    (ensures_siteFrom hlt.le).exists_eq_ok
  have hsite' : t'.siteAt (t'.lineStart (l' + 1)) (l' + 1) = .ok site := by
    rw [← hl]
    exact h.siteAt_pos hup hlt.le hsite
  cases site with
  | code =>
    rw [openerBefore_of_site hlt hsite] at hr
    rw [openerBefore_of_site hlt' hsite', hline]
    exact h.openerWidening_pos hb hzero hup hl hlast (t.lineStart_le_self _)
      (fun n hn => hkeep n fun m hm => ⟨hsite, hn m hm⟩) hr
  | literal ctx =>
    obtain ⟨verdict, hv⟩ :
        ∃ verdict, t.readWindow b .literal (t.lineStart (l + 1)) l = .ok verdict :=
      (ensures_readWindow hlast).exists_eq_ok
    obtain rfl := hr.unique (yields_openerBefore_of_literal hlt hsite hv)
    have hv' := h.readWindow_pos hb hzero hup hl hlast hfirst hv
    rw [← hline] at hv'
    rw [← Verdict.offset?_map]
    exact yields_openerBefore_of_literal hlt' hsite' hv'
  | lineComment =>
    obtain rfl := hr.unique (yields_openerBefore_of_comment hlt hsite rfl)
    exact yields_openerBefore_of_comment hlt' hsite' rfl
  | blockComment =>
    obtain rfl := hr.unique (yields_openerBefore_of_comment hlt hsite rfl)
    exact yields_openerBefore_of_comment hlt' hsite' rfl

/-- Glance and scan backward, in a transcript. -/
theorem partnerBefore_pos (hlt : l + 1 < t.size)
    (hkeep : t.glanceBackward b l = .ok .undecided → ∀ n, t.ReadsWindow b l n →
      t.WindowKeepsEscapes pos l (t.windowStart 0 (t.lineStart (l + 1)) n))
    (hr : Yields (t.partnerBefore b l) r) : Yields (t'.partnerBefore b l') (r.map pos) := by
  have hlast : l < t.size := Nat.lt_of_succ_lt hlt
  have hlast' : l' < t'.size := by
    have hlt' := h.pos_lt_size hup hlt
    omega
  obtain ⟨glance, hglance⟩ : ∃ glance, t.glanceBackward b l = .ok glance :=
    ensures_glanceBackward.exists_eq_ok
  have hglance' : t'.glanceBackward b l' = .ok (glance.map pos) := by
    rw [glanceBackward, if_pos hlast] at hglance
    rw [glanceBackward, if_pos hlast', ← hl, h.glanceBelow_pos hb hzero hup hlt.le Nat.one_pos,
      hglance]
    rfl
  rcases glance.eq_undecided_or_decided with rfl | ⟨r', rfl⟩
  · obtain ⟨r', hscan⟩ : ∃ r', Yields (t.openerBefore b l) r' :=
      (ensures_openerBefore (.inl hlast)).exists_yields
    obtain rfl := hr.unique (partnerBefore_of_undecided hglance hscan)
    exact partnerBefore_of_undecided hglance'
      (h.openerBefore_pos hb hzero hup hl hlt (hkeep hglance) hscan)
  · obtain rfl := hr.unique (partnerBefore_of_decided hglance)
    rw [Glance.map_decided] at hglance'
    exact partnerBefore_of_decided hglance'

end Transcript

end Text

/-! ### Matches -/

namespace BracketTable

variable {table : BracketTable} {b : Bracket} {t t' : Text} {pos : Nat → Nat} {last : Option Nat}
  {i l : Nat} {r : Option Match}

/-- **The match of an opener, in a transcript.** -/
theorem matchBefore_opener_pos (h : Text.Transcript b t t' pos none) (hb : b ∈ table.brackets)
    (ho : t[i]? = some b.opener)
    (hkeep : t.glanceForward b (i + 1) = .ok .undecided →
      t.ScanKeepsEscapes pos (r.map fun m => m.closing.offset) (i + 1))
    (hr : Yields (table.matchBefore t (i + 1)) r) :
    Yields (table.matchBefore t' (pos (i + 1))) (r.map (Match.map pos)) := by
  have hu := usable_of_mem hb
  obtain ⟨halike, hnext⟩ := h.alike_of_has (Text.upTo_none i) hu ho (Bracket.has_iff.mpr (.inl rfl))
  have hg : t.glyphBefore? (i + 1) = some .plain :=
    (Text.glyph?_of_getElem? ho).trans (congrArg some hu.opener_plain)
  obtain ⟨found, hsearch⟩ : ∃ found, Yields (t.partnerAfter b (i + 1)) found :=
    Text.ensures_partnerAfter.exists_yields
  obtain rfl := hr.unique (yields_matchBefore_opener hb ho hsearch)
  have hclosing : (found.map (Match.ofOffsets i)).map (fun m => m.closing.offset) = found := by
    cases found with
    | none => rfl
    | some k =>
      obtain ⟨hik, -⟩ := Text.ensures_partnerAfter.of_yields hsearch k rfl
      exact congrArg some (Nat.max_eq_right (Nat.le_of_lt hik))
  rw [hclosing] at hkeep
  have hsearch' := Text.partnerAfter_pos h hu hg hkeep hsearch
  rw [hnext] at hsearch' ⊢
  rw [Match.map_map_ofOffsets h.strictMono.monotone]
  exact yields_matchBefore_opener hb (halike.opener_iff.mpr ho) hsearch'

/-- **The match of a closer, in a transcript.** -/
theorem matchBefore_closer_pos (h : Text.Transcript b t t' pos last) (hb : b ∈ table.brackets)
    (hzero : pos 0 = 0) (hup : Text.UpTo last (l + 1)) (hc : t[l + 1]? = some b.closer)
    (hkeep : t.glanceBackward b l = .ok .undecided → ∀ n, t.ReadsWindow b l n →
      t.WindowKeepsEscapes pos l (t.windowStart 0 (t.lineStart (l + 1)) n))
    (hr : Yields (table.matchBefore t (l + 2)) r) :
    Yields (table.matchBefore t' (pos (l + 2))) (r.map (Match.map pos)) := by
  have hu := usable_of_mem hb
  obtain ⟨halike, hnext⟩ := h.alike_of_has hup hu hc (Bracket.has_iff.mpr (.inr rfl))
  obtain ⟨l', hl⟩ : ∃ l', pos (l + 1) = l' + 1 :=
    Nat.exists_eq_succ_of_ne_zero fun heq => absurd ((h.pos_eq_zero_iff hzero).mp heq) (by omega)
  obtain ⟨found, hsearch⟩ : ∃ found, Yields (t.partnerBefore b l) found :=
    Text.ensures_partnerBefore.exists_yields
  obtain rfl := hr.unique (yields_matchBefore_closer hb hc hsearch)
  have hsearch' :=
    h.partnerBefore_pos hu hzero hup hl (Text.lt_size_of_getElem? hc) hkeep hsearch
  have hc' : t'[l' + 1]? = some b.closer := hl ▸ (halike.closer_iff hu).mpr hc
  rw [Match.map_map_ofOffsets h.strictMono.monotone, hnext, hl]
  exact yields_matchBefore_closer hb hc' hsearch'

end BracketTable

end BracketMatching
