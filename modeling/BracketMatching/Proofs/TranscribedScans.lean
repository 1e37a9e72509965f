/-
Scans in transcripts: what a scan finds in a text, it finds at its place in a transcript.

Each loop is followed in a transcript, answer by answer: what it answers for the text is
what it answers for the transcript, up to the places of what it found.

* `Text.closerFrom_pos`, `Text.Transcript.readWindowFrom_pos` — the scans, as long as no
  escape that they read tears a line feed of two characters (`Text.KeepsEscapes`);
* `Text.WindowGetsTo` — how far the reading of a window goes before anything stops it;
* `Text.glanceForwardFrom_pos`, `Text.Transcript.glanceBelow_pos` — the glances, which look
  for marks only, and need no care about escapes.

Design note: what is proved is only that an answer of the text is one of the transcript.
The other direction is not needed, since every reading of a text has an answer, and one
only.
-/
import BracketMatching.Proofs.Transcript
import BracketMatching.Proofs.ForwardSearch
import BracketMatching.Proofs.Widening

namespace BracketMatching

/-- What a glance says, in a text where each offset is at another place. -/
def Glance.map (pos : Nat → Nat) : Glance → Glance
  | .hit offset => .hit (pos offset)
  | .absent => .absent
  | .undecided => .undecided

/-- What a window says, in a text where each offset is at another place. -/
def Verdict.map (pos : Nat → Nat) : Verdict → Verdict
  | .opener offset => .opener (pos offset)
  | .noOpener => .noOpener
  | .outOfContext => .outOfContext
  | .falseStart => .falseStart

namespace Text

variable {b : Bracket} {t t' : Text} {pos : Nat → Nat} {last r : Option Nat} {region : Region}
  {ctx : Context} {s : Step} {depth pending i j k l l' lo hi n round start w : Nat}
  {stack : List Nat}

/-- No search looks behind the partner that it finds. -/
theorem Locates.upTo {c : Char} {found : Option Nat} (h : t.Locates c lo hi found) :
    UpTo found lo :=
  fun k hk => (h k hk).1

theorem upTo_of_closerFrom (hd : 0 < depth) (h : t.closerFrom b region depth ctx i = .ok r) :
    UpTo r i :=
  ((ensures_closerFrom hd).of_eq_ok h).upTo

/-- A look around a line break sees no mark where the line has none. -/
theorem marksAround_of_isLineBreak {c : Char} (h : t[i]? = some c)
    (hc : (Glyph.ofChar c).isLineBreak = true) (hline : t.Unmarked (t.lineStart i) i) :
    t.marksAround i = .ok false := by
  have hi : t.marksAt i = .ok false := marksAt_of_isLineBreak h hc
  cases i with
  | zero => exact hi
  | succ j =>
    rw [marksAround, hi]
    by_cases hle : t.lineStart (j + 1) ≤ j
    · exact hline j hle (Nat.lt_succ_self j)
    · -- The line starts here, behind a line feed.
      have hself : t.lineStart (j + 1) = j + 1 :=
        Nat.le_antisymm (t.lineStart_le_self _) (Nat.lt_of_not_le hle)
      obtain hzero | ⟨j', hj', hfeed⟩ := hself ▸ t.isLineStart_lineStart (j + 1)
      · exact absurd hzero (Nat.succ_ne_zero j)
      · obtain rfl : j = j' := Nat.succ.inj hj'
        exact marksAt_of_isLineBreak hfeed rfl

namespace Transcript

variable (h : Transcript b t t' pos last)
include h

theorem size_le_pos (hi : UpTo last i) (hsize : t.size ≤ i) : t'.size ≤ pos i := by
  cases h.writes i hi with
  | alike halike _ => exact halike.size_le hsize
  | returned hfeed _ _ _ => exact absurd (lt_size_of_getElem? hfeed) (Nat.not_lt.mpr hsize)

theorem pos_lt_size (hi : UpTo last i) (hsize : i < t.size) : pos i < t'.size := by
  cases h.writes i hi with
  | alike halike _ =>
    obtain ⟨c, hc, -, -⟩ := halike.exists_getElem? (Array.getElem?_eq_getElem hsize)
    exact lt_size_of_getElem? hc
  | returned _ hreturn _ _ => exact lt_size_of_getElem? hreturn

end Transcript

/-! ### Scans forward -/

theorem closerFrom_of_isLineBreak {c : Char} (hb : b.Usable) (h : t[i]? = some c)
    (hc : (Glyph.ofChar c).isLineBreak = true) :
    t.closerFrom b region depth ctx i =
      if region = .literal ∧ ctx.brokenLine.inLiteral = false then .ok none
      else t.closerFrom b region depth ctx.brokenLine (i + 1) := by
  have hcount : (b.has c && region.admits ctx) = false := by
    rw [has_of_isLineBreak hb hc, Bool.false_and]
  rw [closerFrom_of_step h hcount (step_of_isLineBreak h hc)]
  rfl

/-- A scan that counts the brackets of a literal has not left it as long as it goes on. -/
theorem staysInLiteral_of_step (hstay : region = .literal → t.StaysInLiteral w start i)
    (hv : t.Visits w i ctx) (hs : t.step ctx i = .ok s)
    (hgo : ¬ (region = .literal ∧ s.next.inLiteral = false)) :
    region = .literal → t.StaysInLiteral w start (i + s.consumed) := by
  intro hregion
  refine (hstay hregion).step hv hs ?_
  rw [← Bool.not_eq_false]
  exact fun hout => hgo ⟨hregion, hout⟩

/-- **The forward scan of a transcript.**  It needs no more of the text than what is up to
the closer that it finds, and minds escapes only as far as it reads. -/
theorem closerFrom_pos (h : Transcript b t t' pos r) (hb : b.Usable) (hd : 0 < depth)
    (hv : t.Visits w i ctx) (hstay : region = .literal → t.StaysInLiteral w start i)
    (hkeep : KeepsEscapes t pos
      (fun j => UpTo r (j + 1) ∧ (region = .literal → t.StaysInLiteral w start j)) i ctx)
    (hfound : t.closerFrom b region depth ctx i = .ok r) :
    t'.closerFrom b region depth ctx (pos i) = .ok (r.map pos) := by
  induction hm : t.size - i using Nat.strong_induction_on generalizing depth ctx i with
  | _ m ih =>
  have hup : UpTo r i := upTo_of_closerFrom hd hfound
  by_cases hsize : t.size ≤ i
  · rw [closerFrom, if_neg (Nat.not_lt.mpr hsize)] at hfound
    obtain rfl := Except.ok.inj hfound
    rw [closerFrom, if_neg (Nat.not_lt.mpr (h.size_le_pos hup hsize))]
    rfl
  have hlt : i < t.size := Nat.lt_of_not_le hsize
  have hget : t[i]? = some t[i] := Array.getElem?_eq_getElem hlt
  obtain ⟨depth, rfl⟩ := Nat.exists_eq_succ_of_ne_zero (Nat.ne_of_gt hd)
  cases h.writes i hup with
  | alike halike hnext =>
    obtain ⟨c', hget', hglyph, hhas⟩ := halike.exists_getElem? hget
    rcases hcount : b.has t[i] && region.admits ctx with _ | _
    · have hcount' : (b.has c' && region.admits ctx) = false := hhas ▸ hcount
      obtain ⟨s, hs⟩ : ∃ s, t.step ctx i = .ok s := ⟨_, step_of_lt hlt⟩
      rw [closerFrom_of_step hget hcount hs] at hfound
      by_cases hleft : region = .literal ∧ s.next.inLiteral = false
      · rw [if_pos hleft] at hfound
        obtain rfl := Except.ok.inj hfound
        rw [closerFrom_of_step hget' hcount' (h.step_pos (upTo_none _) halike hnext hs),
          if_pos hleft]
        rfl
      · rw [if_neg hleft] at hfound
        have hle : i + 1 ≤ i + s.consumed := Nat.add_le_add_left s.consumed_pos i
        have hup' : UpTo r (i + 1) := (upTo_of_closerFrom hd hfound).mono hle
        rw [closerFrom_of_step hget' hcount' (h.step_pos hup' halike hnext hs), if_neg hleft,
          ← h.pos_add_consumed hup' ⟨hup', hstay⟩ hkeep hnext hs]
        exact ih _ (by omega) hd (hv.step hs) (staysInLiteral_of_step hstay hv hs hleft)
          (hkeep.step hs) hfound rfl
    · obtain ⟨hbracket, hctx⟩ := Bool.and_eq_true_iff.mp hcount
      have hs : t.step ctx i = .ok (.one ctx) := step_of_plain hget (hb.plain_of_has hbracket)
      have hv' : t.Visits w (i + 1) ctx := hv.step hs
      have hstay' : region = .literal → t.StaysInLiteral w start (i + 1) := by
        refine staysInLiteral_of_step hstay hv hs ?_
        rintro ⟨rfl, hout⟩
        exact Bool.false_ne_true (hout.symm.trans hctx)
      have hkeep' := hkeep.step hs
      rcases Bracket.has_iff.mp hbracket with hopen | hclose
      · rw [closerFrom_of_opener (hopen ▸ hget) hctx] at hfound
        rw [closerFrom_of_opener (halike.opener_iff.mpr (hopen ▸ hget)) hctx, ← hnext]
        exact ih _ (by omega) (Nat.succ_pos _) hv' hstay' hkeep' hfound rfl
      · rw [closerFrom_of_closer hb (hclose ▸ hget) hctx] at hfound
        rw [closerFrom_of_closer hb ((halike.closer_iff hb).mpr (hclose ▸ hget)) hctx]
        by_cases hzero : depth = 0
        · rw [if_pos hzero] at hfound ⊢
          obtain rfl := Except.ok.inj hfound
          rfl
        · rw [if_neg hzero] at hfound ⊢
          rw [← hnext]
          exact ih _ (by omega) (Nat.pos_of_ne_zero hzero) hv' hstay' hkeep' hfound rfl
  | returned hfeed hreturn hfeed' hnext =>
    -- Behind the carriage return the scan is where it is behind the line feed.
    have hs : t.step ctx i = .ok (.one ctx.brokenLine) := step_of_isLineBreak hfeed rfl
    rw [closerFrom_of_isLineBreak hb hfeed rfl] at hfound
    rw [closerFrom_of_isLineBreak hb hreturn rfl, closerFrom_of_isLineBreak hb hfeed' rfl,
      Context.brokenLine_brokenLine, ← hnext]
    by_cases hleft : region = .literal ∧ ctx.brokenLine.inLiteral = false
    · rw [if_pos hleft] at hfound ⊢
      obtain rfl := Except.ok.inj hfound
      rfl
    · rw [if_neg hleft] at hfound
      rw [if_neg hleft, if_neg hleft]
      exact ih _ (by omega) hd (hv.step hs) (staysInLiteral_of_step hstay hv hs hleft)
        (hkeep.step hs) hfound rfl

/-! ### Glances -/

theorem glanceForwardFrom_of_isLineBreak {c : Char} (hb : b.Usable) (h : t[i]? = some c)
    (hc : (Glyph.ofChar c).isLineBreak = true) :
    t.glanceForwardFrom b depth i = t.glanceForwardFrom b depth (i + 1) :=
  glanceForwardFrom_of_other h (has_of_isLineBreak hb hc) (marksAt_of_isLineBreak h hc)

/-- **The forward glance of a transcript.** -/
theorem glanceForwardFrom_pos (h : Transcript b t t' pos none) (hb : b.Usable) (hd : 0 < depth) :
    t'.glanceForwardFrom b depth (pos i) =
      (t.glanceForwardFrom b depth i).map (Glance.map pos) := by
  induction hm : t.size - i using Nat.strong_induction_on generalizing depth i with
  | _ m ih =>
  by_cases hsize : t.size ≤ i
  · rw [glanceForwardFrom_of_size_le hsize,
      glanceForwardFrom_of_size_le (h.size_le_pos (upTo_none i) hsize)]
    rfl
  have hlt : i < t.size := Nat.lt_of_not_le hsize
  have hget : t[i]? = some t[i] := Array.getElem?_eq_getElem hlt
  cases h.writes i (upTo_none i) with
  | alike halike hnext =>
    obtain ⟨c', hget', -, hhas⟩ := halike.exists_getElem? hget
    rcases hbracket : b.has t[i] with _ | _
    · obtain ⟨mark, hmark⟩ := exists_marksAt hlt
      have hmark' : t'.marksAt (pos i) = .ok mark :=
        h.marksAt_pos (upTo_none _) halike hnext hmark
      rw [glanceForwardFrom_of_other hget hbracket hmark,
        glanceForwardFrom_of_other hget' (hhas ▸ hbracket) hmark']
      cases mark with
      | true => rfl
      | false =>
        rw [← hnext]
        exact ih _ (by omega) hd rfl
    · obtain ⟨depth, rfl⟩ := Nat.exists_eq_succ_of_ne_zero (Nat.ne_of_gt hd)
      rcases Bracket.has_iff.mp hbracket with hopen | hclose
      · have ho : t[i]? = some b.opener := hopen ▸ hget
        rw [glanceForwardFrom_of_opener ho,
          glanceForwardFrom_of_opener (halike.opener_iff.mpr ho), ← hnext]
        exact ih _ (by omega) (Nat.succ_pos _) rfl
      · have hc : t[i]? = some b.closer := hclose ▸ hget
        rw [glanceForwardFrom_of_closer hb hc,
          glanceForwardFrom_of_closer hb ((halike.closer_iff hb).mpr hc)]
        by_cases hzero : depth = 0
        · rw [if_pos hzero, if_pos hzero]
          rfl
        · rw [if_neg hzero, if_neg hzero, ← hnext]
          exact ih _ (by omega) (Nat.pos_of_ne_zero hzero) rfl
  | returned hfeed hreturn hfeed' hnext =>
    rw [glanceForwardFrom_of_isLineBreak hb hfeed rfl,
      glanceForwardFrom_of_isLineBreak hb hreturn rfl,
      glanceForwardFrom_of_isLineBreak hb hfeed' rfl, ← hnext]
    exact ih _ (by omega) hd rfl

/-- The look at a line sees what a look at the same line in another text does. -/
theorem exists_marksWithin_line (hi : i ≤ t.size) (hn : n ≤ t'.size)
    (hline : t'.lineStart n = j)
    (hmarks : t'.Unmarked j n ↔ t.Unmarked (t.lineStart i) i) :
    ∃ m, t.marksWithin (t.lineStart i) (i - t.lineStart i) = .ok m ∧
      t'.marksWithin (t'.lineStart n) (n - t'.lineStart n) = .ok m ∧
      (m = false → t.Unmarked (t.lineStart i) i) := by
  have hi' := Nat.add_sub_of_le (t.lineStart_le_self i)
  have hn' := Nat.add_sub_of_le (t'.lineStart_le_self n)
  obtain ⟨m, hm, hiff⟩ := exists_marksWithin (i - t.lineStart i) (hi'.trans_le hi)
  obtain ⟨m', hm', hiff'⟩ := exists_marksWithin (n - t'.lineStart n) (hn'.trans_le hn)
  rw [hi'] at hiff
  rw [hn', hline] at hiff'
  have hsame : m' = false ↔ m = false := hiff'.trans (hmarks.trans hiff.symm)
  obtain rfl : m' = m := by cases m <;> cases m' <;> simp_all
  exact ⟨m', hm, hm', hiff.mp⟩

namespace Transcript

variable (h : Transcript b t t' pos last)
include h

/-- Marks are where they are in the original: the carriage return that a line feed has
got is none. -/
theorem unmarked_pos_iff (hlo : lo ≤ hi) (hup : UpTo last hi) (hsize : hi ≤ t.size) :
    t'.Unmarked (pos lo) (pos hi) ↔ t.Unmarked lo hi := by
  constructor
  · intro hmarks i hloi hihi
    have hlt : i < t.size := hihi.trans_le hsize
    cases h.writes i (hup.mono hihi.le) with
    | alike halike hnext =>
      obtain ⟨m, hm⟩ := exists_marksAt hlt
      have hm' := h.marksAt_pos (hup.mono hihi) halike hnext hm
      rw [hmarks _ (h.pos_le_iff.mpr hloi) (h.pos_lt_iff.mpr hihi)] at hm'
      rw [hm, hm']
    | returned hfeed _ _ _ => exact marksAt_of_isLineBreak hfeed rfl
  · intro hmarks
    induction hi, hlo using Nat.le_induction with
    | base => exact fun i h1 h2 => absurd h1 (Nat.not_le.mpr h2)
    | succ hi hlo ih =>
      have hbelow := ih (hup.mono (Nat.le_succ hi)) (Nat.le_of_succ_le hsize)
        (hmarks.mono (le_refl lo) (Nat.le_succ hi))
      cases h.writes hi (hup.mono (Nat.le_succ hi)) with
      | alike halike hnext =>
        rw [hnext]
        exact hbelow.concat (h.marksAt_pos hup halike hnext (hmarks hi hlo (Nat.lt_succ_self hi)))
      | returned _ hreturn hfeed' hnext =>
        rw [hnext]
        exact (hbelow.concat (marksAt_of_isLineBreak hreturn rfl)).concat
          (marksAt_of_isLineBreak hfeed' rfl)

/-- A look around a character sees what it sees in the original. -/
theorem marksAround_pos (hzero : pos 0 = 0) (hup : UpTo last (i + 1)) (hlt : i < t.size)
    (halike : t.Alike b i t' (pos i)) (hnext : pos (i + 1) = pos i + 1) :
    t'.marksAround (pos i) = t.marksAround i := by
  obtain ⟨m, hm⟩ := exists_marksAt hlt
  have hm' : t'.marksAt (pos i) = .ok m := h.marksAt_pos hup halike hnext hm
  cases i with
  | zero =>
    rw [hzero] at hm' ⊢
    rw [marksAround, marksAround, hm, hm']
  | succ j =>
    obtain ⟨n, hn⟩ : ∃ n, pos (j + 1) = n + 1 :=
      Nat.exists_eq_succ_of_ne_zero (Nat.ne_zero_of_lt (h.pos_lt_iff.mpr (Nat.succ_pos j)))
    have hbefore : t'.marksAt n = t.marksAt j := by
      cases h.writes j (hup.mono (by omega)) with
      | alike halike' hnext' =>
        obtain rfl : n = pos j := Nat.succ.inj (hn.symm.trans hnext')
        obtain ⟨m', hm'⟩ := exists_marksAt (Nat.lt_of_succ_lt hlt)
        rw [hm', h.marksAt_pos (hup.mono (Nat.le_succ _)) halike' hnext' hm']
      | returned hfeed _ hfeed' hnext' =>
        obtain rfl : n = pos j + 1 := Nat.succ.inj (hn.symm.trans hnext')
        rw [marksAt_of_isLineBreak hfeed rfl, marksAt_of_isLineBreak hfeed' rfl]
    rw [hn] at hm' ⊢
    rw [marksAround, marksAround, hm, hm', hbefore]

/-- **The backward glance of a transcript.** -/
theorem glanceBelow_pos (hb : b.Usable) (hzero : pos 0 = 0) (hup : UpTo last n)
    (hsize : n ≤ t.size) (hp : 0 < pending) :
    t'.glanceBelow b pending (pos n) = (t.glanceBelow b pending n).map (Glance.map pos) := by
  induction n generalizing pending with
  | zero =>
    rw [hzero]
    rfl
  | succ i ih =>
    have hup' : UpTo last i := hup.mono (Nat.le_succ i)
    have hsize' : i ≤ t.size := Nat.le_of_succ_le hsize
    have hget : t[i]? = some t[i] := Array.getElem?_eq_getElem hsize
    have hmarks := h.unmarked_pos_iff (t.lineStart_le_self i) hup' hsize'
    have hlt' : pos i < t'.size := h.pos_lt_size hup' hsize
    cases h.writes i hup' with
    | alike halike hnext =>
      obtain ⟨c', hget', -, hhas⟩ := halike.exists_getElem? hget
      rw [hnext]
      rcases hbracket : b.has t[i] with _ | _
      · by_cases hfeed : t[i] = '\n'
        · rw [hfeed] at hget hbracket
          have hget' : t'[pos i]? = some '\n' := halike.lineFeed_iff.mpr hget
          obtain ⟨mark, hmark, hmark', -⟩ := exists_marksWithin_line hsize' hlt'.le
            (h.lineStart_pos hup' hsize') hmarks
          rw [glanceBelow_of_lineFeed hget hbracket hmark,
            glanceBelow_of_lineFeed hget' hbracket hmark']
          cases mark with
          | true => rfl
          | false => exact ih hup' hsize' hp
        · have hfeed' : c' ≠ '\n' := fun heq =>
            hfeed (Option.some.inj (hget.symm.trans (halike.lineFeed_iff.mp (heq ▸ hget'))))
          obtain ⟨mark, hmark, -, -⟩ := exists_marksAround (t := t) hsize
          have hmark' : t'.marksAround (pos i) = .ok mark :=
            (h.marksAround_pos hzero hup hsize halike hnext).trans hmark
          rw [glanceBelow_of_other hget hbracket hfeed hmark,
            glanceBelow_of_other hget' (hhas ▸ hbracket) hfeed' hmark']
          cases mark with
          | true => rfl
          | false => exact ih hup' hsize' hp
      · rcases Bracket.has_iff.mp hbracket with hopen | hclose
        · have ho : t[i]? = some b.opener := hopen ▸ hget
          obtain ⟨pending, rfl⟩ := Nat.exists_eq_succ_of_ne_zero (Nat.ne_of_gt hp)
          rw [glanceBelow_of_opener hb ho, glanceBelow_of_opener hb (halike.opener_iff.mpr ho)]
          by_cases hlast : pending = 0
          · rw [if_pos hlast, if_pos hlast]
            rfl
          · rw [if_neg hlast, if_neg hlast]
            exact ih hup' hsize' (Nat.pos_of_ne_zero hlast)
        · have hc : t[i]? = some b.closer := hclose ▸ hget
          rw [glanceBelow_of_closer hc, glanceBelow_of_closer ((halike.closer_iff hb).mpr hc)]
          exact ih hup' hsize' (Nat.succ_pos _)
    | returned hfeed hreturn hfeed' hnext =>
      have hmarks' : t'.Unmarked (pos (t.lineStart i)) (pos i + 1) ↔
          t.Unmarked (t.lineStart i) i :=
        ⟨fun hu => hmarks.mp (hu.mono (le_refl _) (Nat.le_succ _)),
          fun hu => (hmarks.mpr hu).concat (marksAt_of_isLineBreak hreturn rfl)⟩
      obtain ⟨mark, hmark, hmark', hclean⟩ := exists_marksWithin_line hsize'
        (lt_size_of_getElem? hfeed').le (h.lineStart_before_pos hup' hsize' hnext) hmarks'
      rw [glanceBelow_of_lineFeed hfeed (has_of_isLineBreak hb rfl) hmark, hnext,
        glanceBelow_of_lineFeed hfeed' (has_of_isLineBreak hb rfl) hmark']
      cases mark with
      | true => rfl
      | false =>
        -- The look around the carriage return sees what the look at the line has seen.
        have haround : t'.marksAround (pos i) = .ok false := by
          refine marksAround_of_isLineBreak hreturn rfl ?_
          rw [h.lineStart_pos hup' hsize']
          exact hmarks.mpr (hclean rfl)
        rw [if_neg Bool.false_ne_true, if_neg Bool.false_ne_true,
          glanceBelow_of_other hreturn (has_of_isLineBreak hb rfl) (by decide) haround]
        exact ih hup' hsize' hp

end Transcript

/-! ### Windows -/

/-- The reading of the window from `w` gets to `i`: nothing stops it before. -/
def WindowGetsTo (t : Text) (w i : Nat) : Prop :=
  ∀ j, j < i → ¬ t.StopsAt w j

theorem windowGetsTo_start (t : Text) (w : Nat) : t.WindowGetsTo w w :=
  fun _ hj hstop => absurd hstop.le (Nat.not_le.mpr hj)

theorem WindowGetsTo.step (h : t.WindowGetsTo w i) (hv : t.Visits w i ctx)
    (hs : t.step ctx i = .ok s) (hi : ¬ t.StopsAt w i) : t.WindowGetsTo w (i + s.consumed) := by
  intro j hj hstop
  have hji : j < i := Nat.lt_of_not_le fun hij =>
    absurd (hstop.add_consumed_le hv hs hi hij) (Nat.not_le.mpr hj)
  exact h j hji hstop

/-- A line break opens no literal, and so keeps the stack. -/
theorem readWindowFrom_of_isLineBreak {c : Char} (hb : b.Usable) (hi : i ≤ l) (h : t[i]? = some c)
    (hc : (Glyph.ofChar c).isLineBreak = true) :
    t.readWindowFrom b region w l stack ctx i =
      if (ctx.cutByLineBreak && w != 0) = true then .ok .falseStart
      else t.readWindowFrom b region w l stack ctx.brokenLine (i + 1) := by
  have hcount : (b.has c && region.admits ctx) = false := by
    rw [has_of_isLineBreak hb hc, Bool.false_and]
  have hstray : (ctx.isCode && t.closesBlockAt i) = false := by
    rw [closesBlockAt_of_isLineBreak h hc, Bool.and_false]
  have hopens : ¬ (region = .literal ∧ (Step.one ctx.brokenLine).next.inLiteral = true ∧
      ctx.inLiteral = false) := by
    rintro ⟨-, hin, hout⟩
    simp_all [Step.one, Context.inLiteral, Context.brokenLine]
  rw [readWindowFrom_of_step hi h hcount hstray (step_of_isLineBreak h hc), hc, Bool.true_and,
    if_neg hopens]
  rfl

namespace Transcript

variable (h : Transcript b t t' pos last)
include h

theorem pos_eq_zero_iff (hzero : pos 0 = 0) : pos i = 0 ↔ i = 0 :=
  ⟨fun hi => h.strictMono.injective (hi.trans hzero.symm), fun hi => hi ▸ hzero⟩

theorem bne_zero_pos (hzero : pos 0 = 0) : (pos w != 0) = (w != 0) := by
  rw [Bool.eq_iff_iff, bne_iff_ne, bne_iff_ne, ne_eq, h.pos_eq_zero_iff hzero]

/-- Past the closer, a window says the same in either text. -/
theorem readWindowFrom_past_pos (hl : pos (l + 1) = l' + 1) (hi : l < i) :
    t'.readWindowFrom b region (pos w) l' (stack.map pos) ctx (pos i) =
      (t.readWindowFrom b region w l stack ctx i).map (Verdict.map pos) := by
  have hi' : l' < pos i := by
    have hle : pos (l + 1) ≤ pos i := h.pos_le_iff.mpr hi
    omega
  have hpast : decide (l' + 1 < pos i) = decide (l + 1 < i) := by
    rw [← hl, decide_eq_decide, h.pos_lt_iff]
  rw [readWindowFrom_past hi, readWindowFrom_past hi', hpast]
  split
  · rfl
  · cases stack <;> rfl

/-- **The windows of a transcript.**  They end right before the closer, in either text. -/
theorem readWindowFrom_pos (hb : b.Usable) (hzero : pos 0 = 0) (hup : UpTo last (l + 1))
    (hlt : l < t.size) (hl : pos (l + 1) = l' + 1) (hv : t.Visits w i ctx)
    (hgo : t.WindowGetsTo w i)
    (hkeep : KeepsEscapes t pos (fun j => j ≤ l ∧ t.WindowGetsTo w j) i ctx) :
    t'.readWindowFrom b region (pos w) l' (stack.map pos) ctx (pos i) =
      (t.readWindowFrom b region w l stack ctx i).map (Verdict.map pos) := by
  induction hm : l + 1 - i using Nat.strong_induction_on generalizing stack ctx i with
  | _ m ih =>
  by_cases hpast : l < i
  · exact h.readWindowFrom_past_pos hl hpast
  have hi : i ≤ l := Nat.le_of_not_lt hpast
  have hi' : pos i ≤ l' := by
    have hlt' : pos i < pos (l + 1) := h.pos_lt_iff.mpr (Nat.lt_succ_of_le hi)
    omega
  have hup' : UpTo last (i + 1) := hup.mono (Nat.succ_le_succ hi)
  have hget : t[i]? = some t[i] := Array.getElem?_eq_getElem (hi.trans_lt hlt)
  cases h.writes i (hup'.mono (Nat.le_succ i)) with
  | alike halike hnext =>
    obtain ⟨c', hget', hglyph, hhas⟩ := halike.exists_getElem? hget
    rcases hcount : b.has t[i] && region.admits ctx with _ | _
    · have hcount' : (b.has c' && region.admits ctx) = false := hhas ▸ hcount
      have hstray' : (ctx.isCode && t'.closesBlockAt (pos i)) =
          (ctx.isCode && t.closesBlockAt i) := by
        rw [h.closesBlockAt_pos hup' halike hnext]
      rcases hstray : ctx.isCode && t.closesBlockAt i with _ | _
      · obtain ⟨s, hs⟩ : ∃ s, t.step ctx i = .ok s := ⟨_, step_of_lt (hi.trans_lt hlt)⟩
        have hs' := h.step_pos hup' halike hnext hs
        have hpos := s.consumed_pos
        rw [readWindowFrom_of_step hi hget hcount hstray hs,
          readWindowFrom_of_step hi' hget' hcount' (hstray'.trans hstray) hs', hglyph,
          h.bne_zero_pos hzero,
          ← h.pos_add_consumed hup' ⟨hi, hgo⟩ hkeep hnext hs]
        split
        · rfl
        · next hcut =>
          have hon : ¬ t.StopsAt w i := by
            rw [stopsAt_iff hv hget, hstray]
            exact fun hor => hor.elim Bool.false_ne_true hcut
          rw [← ih _ (by omega) (hv.step hs) (hgo.step hv hs hon) (hkeep.step hs) rfl,
            apply_ite (List.map pos)]
          rfl
      · rw [readWindowFrom_of_stray hi hget hcount hstray,
          readWindowFrom_of_stray hi' hget' hcount' (hstray'.trans hstray)]
        simp only [Verdict.stopped, h.pos_eq_zero_iff hzero]
        split <;> rfl
    · have hcount' : (b.has c' && region.admits ctx) = true := hhas ▸ hcount
      have hbracket := (Bool.and_eq_true_iff.mp hcount).1
      have hplain := hb.plain_of_has hbracket
      have hs : t.step ctx i = .ok (.one ctx) := step_of_plain hget hplain
      have hv' : t.Visits w (i + 1) ctx := hv.step hs
      have hgo' : t.WindowGetsTo w (i + 1) := hgo.step hv hs (not_stopsAt_of_plain hv hget hplain)
      have hopen : c' = b.opener ↔ t[i] = b.opener := by
        rw [← Option.some_inj, ← hget', halike.opener_iff, hget, Option.some_inj]
      rw [readWindowFrom_of_bracket hi hget hcount, readWindowFrom_of_bracket hi' hget' hcount',
        ← hnext, ← List.map_tail, ← ih _ (by omega) hv' hgo' (hkeep.step hs) rfl,
        apply_ite (List.map pos)]
      simp only [hopen, List.map_cons]
  | returned hfeed hreturn hfeed' hnext =>
    have hs : t.step ctx i = .ok (.one ctx.brokenLine) := step_of_isLineBreak hfeed rfl
    have hi'' : pos i + 1 ≤ l' := by
      have hle : pos (i + 1) ≤ pos (l + 1) := h.pos_le_iff.mpr (Nat.succ_le_succ hi)
      omega
    rw [readWindowFrom_of_isLineBreak hb hi hfeed rfl,
      readWindowFrom_of_isLineBreak hb hi' hreturn rfl, h.bne_zero_pos hzero]
    split
    · rfl
    · next hcut =>
      have hon : ¬ t.StopsAt w i := by
        rw [stopsAt_iff hv hfeed, closesBlockAt_of_isLineBreak hfeed rfl, Bool.and_false]
        exact fun hor => hor.elim Bool.false_ne_true hcut
      rw [readWindowFrom_of_isLineBreak hb hi'' hfeed' rfl, Context.cutByLineBreak_brokenLine,
        Bool.false_and, if_neg Bool.false_ne_true, Context.brokenLine_brokenLine, ← hnext]
      exact ih _ (by omega) (hv.step hs) (hgo.step hv hs hon) (hkeep.step hs) rfl

end Transcript

end Text

end BracketMatching
