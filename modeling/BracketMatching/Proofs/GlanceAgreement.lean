/-
A glance that is decided says what a scan that reads contexts would have said.

Forward this is so without exception, for any two characters as a bracket: a scan
that starts in code passes every character that a glance passes, and is still in
code behind it (`Text.closerAfter_of_glanceForward`).

Backward the scan is the window that starts with the line of the opener found.  A
line feed between the two brackets has made the glance look over that whole line.
Without one there may be a carriage return, which starts no line but ends literals
and line comments like a line feed; what it ends there is all that the window can
object to (`BracketTable.readWindow_iff_of_glanceBackward`):

* behind the opener, it ends a line comment or a literal that hides the opener;
* anywhere before the closer, it cuts off a literal, and the line is not the first
  one: to a window that is the sign of a false start.

So a hit is confirmed where no carriage return ends such a thing
(`BracketTable.glanceBackward_confirmed`), but not in all texts: a glance does not take
a literal that is cut off for a false start, as a window does
(`BracketTable.not_forall_glanceBackward_confirmed`).
-/
import BracketMatching.Proofs.BackwardSearch
import BracketMatching.Proofs.ForwardSearch

namespace BracketMatching

/-- Inside of nothing that a line break ends, a line break leads into code from code
only. -/
theorem Context.isCode_of_isCode_brokenLine {ctx : Context} (hline : ctx.lineComment = false)
    (hcut : ctx.cutByLineBreak = false) (h : ctx.brokenLine.isCode = true) :
    ctx.isCode = true := by
  unfold cutByLineBreak at hcut
  unfold isCode inLiteral inComment at h ⊢
  unfold brokenLine at h
  grind

namespace Text

variable {t : Text} {b : Bracket} {i k last start depth w : Nat} {r : Option Nat}

/-! ### Forward -/

/-- From a character to the next, a scan in code goes on where a glance does. -/
theorem closerFrom_of_glanceForwardFrom (h : t.glanceForwardFrom b depth i = .ok (.decided r)) :
    t.closerFrom b .code depth .code i = .ok r := by
  fun_induction t.glanceForwardFrom b depth i with
  | case1 depth i hlt ihopen ihclose ihpass =>
    have hread : t.read i = .ok t[i] := read_of_lt hlt
    have hcode : Region.code.admits .code = true := rfl
    rw [hread] at h
    rw [closerFrom, if_pos hlt, hread]
    simp only [bind, Except.bind] at h ⊢
    by_cases hopen : t[i] = b.opener
    · have hhas : b.has t[i] = true := Bracket.has_iff.mpr (.inl hopen)
      rw [if_pos hopen] at h
      rw [hhas, hcode, Bool.and_self, if_pos rfl, if_pos hopen]
      exact ihopen h
    · by_cases hclose : t[i] = b.closer
      · have hhas : b.has t[i] = true := Bracket.has_iff.mpr (.inr hclose)
        rw [if_neg hopen, if_pos hclose] at h
        rw [hhas, hcode, Bool.and_self, if_pos rfl, if_neg hopen]
        cases depth with
        | zero => cases h
        | succ depth =>
          simp only [lower_succ] at h ⊢
          by_cases hzero : depth = 0
          · rw [if_pos hzero] at h
            obtain rfl : some i = r := Glance.decided_injective (Except.ok.inj h)
            rw [if_pos hzero]
            rfl
          · rw [if_neg hzero] at h
            rw [if_neg hzero]
            exact ihclose depth h
      · -- No bracket and, since the glance goes on, no mark: the step stays in code.
        have hhas : b.has t[i] = false := by
          rw [Bool.eq_false_iff, ne_eq, Bracket.has_iff, not_or]
          exact ⟨hopen, hclose⟩
        rw [if_neg hopen, if_neg hclose] at h
        rcases hm : t.marksAt i with f | _ | _
        · rw [hm] at h
          cases h
        · rw [hm] at h
          rw [hhas, Bool.false_and, if_neg Bool.false_ne_true, step_code_of_marksAt hm]
          exact ihpass h
        · rw [hm] at h
          exact absurd (Except.ok.inj h).symm (Glance.decided_ne_undecided r)
  | case2 depth i hge =>
    obtain rfl : none = r := Glance.decided_injective (Except.ok.inj h)
    rw [closerFrom, if_neg hge]

/-- **A forward glance is confirmed by the scan** wherever it starts in code. -/
theorem closerAfter_of_glanceForward
    (hsite : t.siteAt (t.lineStart start) start = .ok .code)
    (h : t.glanceForward b start = .ok (.decided r)) :
    t.closerAfter b start = .ok (.quiet r) := by
  rw [glanceForward] at h
  rw [closerAfter]
  by_cases hlt : start < t.size
  · rw [if_pos hlt, hsite]
    simp only [bind, Except.bind, Site.region?, closerFrom_of_glanceForwardFrom h]
    rfl
  · rw [glanceForwardFrom_of_size_le (Nat.not_lt.mp hlt)] at h
    obtain rfl : none = r := Glance.decided_injective (Except.ok.inj h)
    rw [if_neg hlt]

/-- A text in which a slash opens and a star closes, so that the marks are brackets. -/
def slashStarText : Text := .ofString "/ //*/***"

theorem closerAfter_slashStarText :
    (slashStarText.siteAt (slashStarText.lineStart 1) 1 = .ok .code ∧
      slashStarText.glanceForward ⟨'/', '*'⟩ 1 = .ok (.hit 8)) ∧
    slashStarText.closerAfter ⟨'/', '*'⟩ 1 = .ok (.quiet (some 8)) := by
  have hsite : slashStarText.siteAt (slashStarText.lineStart 1) 1 = .ok .code := by
    decide +kernel
  have hglance : slashStarText.glanceForward ⟨'/', '*'⟩ 1 = .ok (.hit 8) := by decide +kernel
  exact ⟨⟨hsite, hglance⟩, closerAfter_of_glanceForward (r := some 8) hsite hglance⟩

/-! ### Backward -/

/-- At `i` the run from `w` is `inside` of something, and meets a carriage return. -/
def MeetsReturn (t : Text) (inside : Context → Bool) (w i : Nat) : Prop :=
  t[i]? = some '\r' ∧ ∃ ctx, t.Visits w i ctx ∧ inside ctx = true

instance decidableMeetsReturn (t : Text) (inside : Context → Bool) (w i : Nat) :
    Decidable (t.MeetsReturn inside w i) :=
  decidable_of_iff (t[i]? = some '\r' ∧ ∃ ctx ∈ t.contextAt i .code w, inside ctx = true)
    (by simp only [Option.mem_def, contextAt_eq_some_iff, MeetsReturn, Visits])

/-- An opener that waits for the closer, with no mark between, is what a window shows
that visits it in code and meets no sign of a false start. -/
theorem readWindow_eq_opener_iff_of_unmarked (hb : b.Usable) (hlast : last < t.size)
    (hopener : (t.sides b).LastOpener ((t.sides b).height (last + 1)) 0 (last + 1) (some k))
    (hm : t.Unmarked (k + 1) (last + 1)) (hwk : w ≤ k) :
    t.readWindow b .code w last = .ok (.opener k) ↔
      t.VisitsCode w k ∧ ∀ i, i ≤ last → ¬ t.StopsAt w i := by
  obtain ⟨⟨-, hklast, hk, -⟩, -⟩ := id hopener
  have hwl : w ≤ last + 1 := by omega
  have hmark := marksAt_of_has hb (sides_eq_forward.mp hk) (Bracket.has_iff.mpr (.inl rfl))
  have hall : t.Unmarked k (last + 1) := hm.cons hmark
  rw [readWindow_eq_opener_iff hb hlast hwl]
  constructor
  · rintro ⟨hgo, -, ⟨-, -, hk, -⟩, -⟩
    exact ⟨(codeSides_eq_some.mp hk).1, hgo⟩
  · rintro ⟨hcode, hgo⟩
    have hrun := Reaches.code_of_unmarked hall hklast.le
    refine ⟨hgo, ⟨.code, (visitsCode_iff.mp hcode).trans hrun, rfl⟩, ?_⟩
    refine (hopener.congr fun j _ hj hkj => ?_).of_ge w.zero_le hwk
    exact (codeSides_eq_sides_of_unmarked hcode (hall.mono (le_refl k) hj.le) (hkj k rfl)).symm

/-- Where the run stays in code, a carriage return ends nothing. -/
theorem not_meetsReturn_of_unmarked {inside : Context → Bool} (hin : inside .code = false)
    (hk : t.VisitsCode w k) (hm : t.Unmarked k (last + 1)) (hki : k ≤ i) (hi : i ≤ last) :
    ¬ t.MeetsReturn inside w i := by
  rintro ⟨-, ctx, hv, hctx⟩
  have hrun := Reaches.code_of_unmarked (hm.mono (le_refl k) (by omega)) hki
  obtain rfl : ctx = .code := hv.context_unique ((visitsCode_iff.mp hk).trans hrun)
  exact nomatch hin.symm.trans hctx

/-- On one line, an opener that no mark separates from the closer is visited in code
exactly if no carriage return behind it ends what hides it. -/
theorem visitsCode_iff_of_unmarked (hb : b.Usable) (hk : t[k]? = some b.opener)
    (hwk : w ≤ k) (hklast : k ≤ last) (hcode : t.VisitsCode w (last + 1))
    (hm : t.Unmarked (k + 1) (last + 1))
    (hfeed : ∀ m, w ≤ m → m ≤ last → t[m]? ≠ some '\n') :
    t.VisitsCode w k ↔ ∀ i, k < i → i ≤ last →
      ¬ t.MeetsReturn Context.lineComment w i ∧ ¬ t.MeetsReturn Context.cutByLineBreak w i := by
  have hall := hm.cons (marksAt_of_has hb hk (Bracket.has_iff.mpr (.inl rfl)))
  constructor
  · intro h i hki hi
    exact ⟨not_meetsReturn_of_unmarked rfl h hall hki.le hi,
      not_meetsReturn_of_unmarked rfl h hall hki.le hi⟩
  · intro h
    refine visitsCode_of_unmarked_line hcode hwk (Nat.lt_succ_of_le hklast) hk hb.opener_plain hm
      fun m ctx h1 h2 hbreak hv => ?_
    obtain ⟨c, hc, hcb⟩ := hbreak
    have hmlast : m ≤ last := Nat.le_of_lt_succ h2
    rcases Glyph.isLineBreak_ofChar_iff.mp hcb with rfl | rfl
    · exact absurd hc (hfeed m (by omega) hmlast)
    · obtain ⟨hline, hcut⟩ := h m h1 hmlast
      have hline : ctx.lineComment = false :=
        Bool.eq_false_iff.mpr fun hin => hline ⟨hc, ctx, hv, hin⟩
      have hcut : ctx.cutByLineBreak = false :=
        Bool.eq_false_iff.mpr fun hin => hcut ⟨hc, ctx, hv, hin⟩
      exact Context.isCode_of_isCode_brokenLine hline hcut

/-- On a line that is code up to `last`, a carriage return in a literal is all that may
stop a window, and stops none at the beginning of the text. -/
theorem stopsAt_iff_meetsReturn (hstray : t.NoStrayEnd w w (last + 1))
    (hfeed : ∀ m, w ≤ m → m ≤ last → t[m]? ≠ some '\n') (hi : i ≤ last) :
    t.StopsAt w i ↔ w ≠ 0 ∧ t.MeetsReturn Context.cutByLineBreak w i := by
  constructor
  · rintro ⟨ctx, hv, ⟨hcode, hend⟩ | ⟨hw, ⟨c, hc, hcb⟩, hcut⟩⟩
    · rw [hstray i hv.le (by omega) ⟨ctx, hv, hcode⟩] at hend
      exact nomatch hend
    · rcases Glyph.isLineBreak_ofChar_iff.mp hcb with rfl | rfl
      · exact absurd hc (hfeed i hv.le hi)
      · exact ⟨hw, hc, ctx, hv, hcut⟩
  · rintro ⟨hw, hc, ctx, hv, hcut⟩
    exact ⟨ctx, hv, .inr ⟨hw, ⟨'\r', hc, rfl⟩, hcut⟩⟩

end Text

namespace BracketTable

variable {table : BracketTable} {t : Text} {b : Bracket} {k last : Nat}

/-- The window that starts with the line of the opener found at a glance shows that opener
exactly if no carriage return on the closer's line ends a line comment or a literal behind
the opener, nor, unless the line is the first one, a literal anywhere before the closer. -/
theorem readWindow_iff_of_glanceBackward (hb : b ∈ table.brackets)
    (hc : t[last + 1]? = some b.closer)
    (hsite : t.siteAt (t.lineStart (last + 1)) (last + 1) = .ok .code)
    (hglance : t.glanceBackward b last = .ok (.hit k)) :
    t.readWindow b .code (t.lineStart k) last = .ok (.opener k) ↔
      (∀ i, k < i → i ≤ last →
        ¬ t.MeetsReturn Context.lineComment (t.lineStart (last + 1)) i) ∧
      (∀ i, i ≤ last → k < i ∨ t.lineStart (last + 1) ≠ 0 →
        ¬ t.MeetsReturn Context.cutByLineBreak (t.lineStart (last + 1)) i) := by
  have hu := usable_of_mem hb
  have hsize : last + 1 < t.size := Text.lt_size_of_getElem? hc
  have hlast : last < t.size := by omega
  obtain ⟨hopener, hm, hclean⟩ := (Text.glanceBackward_eq_hit_iff hu hlast).mp hglance
  obtain ⟨⟨-, hklast, hk, -⟩, -⟩ := id hopener
  have hk : t[k]? = some b.opener := Text.sides_eq_forward.mp hk
  rw [Text.readWindow_eq_opener_iff_of_unmarked hu hlast hopener hm (t.lineStart_le_self k)]
  by_cases hfeed : ∃ m, k < m ∧ m < last + 1 ∧ t[m]? = some '\n'
  · -- The opener's line is free of marks, and so is everything from there to the closer.
    have hall := Text.unmarked_from_lineStart hsize.le hk hu.opener_plain hm hclean hfeed
    have hcode : t.VisitsCode (t.lineStart k) k :=
      ⟨.code, Text.Reaches.code_of_unmarked (hall.mono (le_refl _) hklast.le)
        (t.lineStart_le_self k), rfl⟩
    have hkstart : k + 1 ≤ t.lineStart (last + 1) := by
      obtain ⟨m, hkm, hml, hmf⟩ := hfeed
      by_contra hlt
      have hle : t.lineStart (last + 1) ≤ m := by omega
      exact Text.ne_lineFeed_of_lineStart_le hle (by omega) hmf
    have hreturn : ∀ {inside : Context → Bool}, inside .code = false → ∀ i, i ≤ last →
        ¬ t.MeetsReturn inside (t.lineStart (last + 1)) i := by
      intro inside hin i hi hmeets
      obtain ⟨-, ctx, hv, -⟩ := id hmeets
      exact Text.not_meetsReturn_of_unmarked hin (t.visitsCode_self _)
        (hm.mono hkstart (le_refl _)) hv.le hi hmeets
    refine iff_of_true ⟨hcode, fun i hi hstop => ?_⟩
      ⟨fun i _ hi => hreturn rfl i hi, fun i hi _ => hreturn rfl i hi⟩
    exact Text.not_contradicts_of_unmarked hall (Nat.lt_succ_of_le hi) hstop.contradicts
  · have hsame : t.lineStart (last + 1) = t.lineStart k := by
      refine Text.lineStart_eq_of_no_lineFeed hklast.le hsize.le fun m h1 h2 hmf => ?_
      rcases h1.eq_or_lt with rfl | hlt
      · exact Text.ne_lineFeed_of_plain hk hu.opener_plain hmf
      · exact hfeed ⟨m, hlt, h2, hmf⟩
    have hplain : t.glyph? (last + 1) = some .plain := by
      rw [Text.glyph?_of_getElem? hc, hu.closer_plain]
    obtain ⟨hcode, hstray⟩ :=
      (Text.siteAt_eq_code_iff hplain (t.lineStart_le_self (last + 1))).mp hsite
    have hline : ∀ m, t.lineStart (last + 1) ≤ m → m ≤ last → t[m]? ≠ some '\n' :=
      fun m h1 h2 => Text.ne_lineFeed_of_lineStart_le h1 (by omega)
    rw [← hsame, Text.visitsCode_iff_of_unmarked hu hk (hsame ▸ t.lineStart_le_self k)
      (Nat.le_of_lt_succ hklast) hcode hm hline]
    have hstops := fun i (hi : i ≤ last) => Text.stopsAt_iff_meetsReturn hstray hline hi
    constructor
    · rintro ⟨hhidden, hgo⟩
      refine ⟨fun i hki hi => (hhidden i hki hi).1, fun i hi hor hmeets => ?_⟩
      rcases hor with hki | hne
      · exact (hhidden i hki hi).2 hmeets
      · exact hgo i hi ((hstops i hi).mpr ⟨hne, hmeets⟩)
    · rintro ⟨hcomment, hcut⟩
      refine ⟨fun i hki hi => ⟨hcomment i hki hi, hcut i hi (.inl hki)⟩, fun i hi hstop => ?_⟩
      obtain ⟨hne, hmeets⟩ := (hstops i hi).mp hstop
      exact hcut i hi (.inr hne) hmeets

/-- **A backward hit at a glance is confirmed** by the window that starts with the line of
the opener, unless a carriage return ends what hides the opener, or cuts off a literal on a
line that is not the first one. -/
theorem glanceBackward_confirmed (hb : b ∈ table.brackets) (hc : t[last + 1]? = some b.closer)
    (hsite : t.siteAt (t.lineStart (last + 1)) (last + 1) = .ok .code)
    (hglance : t.glanceBackward b last = .ok (.hit k))
    (hcomment : ∀ i, k < i → i ≤ last →
      ¬ t.MeetsReturn Context.lineComment (t.lineStart (last + 1)) i)
    (hcut : ∀ i, i ≤ last → k < i ∨ t.lineStart (last + 1) ≠ 0 →
      ¬ t.MeetsReturn Context.cutByLineBreak (t.lineStart (last + 1)) i) :
    t.readWindow b .code (t.lineStart k) last = .ok (.opener k) :=
  (readWindow_iff_of_glanceBackward hb hc hsite hglance).mpr ⟨hcomment, hcut⟩

/-- A call whose line has a carriage return between a character literal and the call,
and stands below another line. -/
def returnedCallText : Text := .ofString "x\r\n'('\rf(a, (b))"

theorem glanceBackward_confirmed_returnedCallText :
    (returnedCallText[15]? = some ')' ∧
      returnedCallText.siteAt (returnedCallText.lineStart 15) 15 = .ok .code ∧
      returnedCallText.glanceBackward ⟨'(', ')'⟩ 14 = .ok (.hit 8) ∧
      (∀ i, 8 < i → i ≤ 14 →
        ¬ returnedCallText.MeetsReturn Context.lineComment (returnedCallText.lineStart 15) i) ∧
      (∀ i, i ≤ 14 → 8 < i ∨ returnedCallText.lineStart 15 ≠ 0 →
        ¬ returnedCallText.MeetsReturn Context.cutByLineBreak
          (returnedCallText.lineStart 15) i)) ∧
    returnedCallText.MeetsReturn Context.isCode (returnedCallText.lineStart 15) 6 ∧
    returnedCallText.readWindow ⟨'(', ')'⟩ .code (returnedCallText.lineStart 8) 14 =
      .ok (.opener 8) := by
  have hc : returnedCallText[14 + 1]? = some ')' := by decide +kernel
  have hsite : returnedCallText.siteAt (returnedCallText.lineStart 15) 15 = .ok .code := by
    decide +kernel
  have hglance : returnedCallText.glanceBackward ⟨'(', ')'⟩ 14 = .ok (.hit 8) := by
    decide +kernel
  have hcomment : ∀ i < 15, ¬ returnedCallText.MeetsReturn Context.lineComment
      (returnedCallText.lineStart 15) i := by decide +kernel
  have hcut : ∀ i < 15, ¬ returnedCallText.MeetsReturn Context.cutByLineBreak
      (returnedCallText.lineStart 15) i := by decide +kernel
  have hcomment := fun i (_ : 8 < i) (hi : i ≤ 14) => hcomment i (Nat.lt_succ_of_le hi)
  have hcut := fun i (hi : i ≤ 14) (_ : 8 < i ∨ returnedCallText.lineStart 15 ≠ 0) =>
    hcut i (Nat.lt_succ_of_le hi)
  have hb : ⟨'(', ')'⟩ ∈ standard.brackets := by decide
  exact ⟨⟨hc, hsite, hglance, hcomment, hcut⟩, by decide +kernel,
    glanceBackward_confirmed hb hc hsite hglance hcomment hcut⟩

/-- A call behind a string that a carriage return cuts off, below another line. -/
def cutStringText : Text := .ofString "\n\"\r(x)"

/-- Not every backward hit at a glance is confirmed: the window takes the string for a
false start. -/
theorem not_forall_glanceBackward_confirmed :
    ¬ ∀ (table : BracketTable) (t : Text) (b : Bracket) (last k : Nat), b ∈ table.brackets →
      t[last + 1]? = some b.closer →
      t.siteAt (t.lineStart (last + 1)) (last + 1) = .ok .code →
      t.glanceBackward b last = .ok (.hit k) →
      t.readWindow b .code (t.lineStart k) last = .ok (.opener k) := by
  intro h
  have hwindow := h standard cutStringText ⟨'(', ')'⟩ 4 3 (by decide) (by decide +kernel)
    (by decide +kernel) (by decide +kernel)
  have hfalse : cutStringText.readWindow ⟨'(', ')'⟩ .code (cutStringText.lineStart 3) 4 =
      .ok .falseStart := by decide +kernel
  exact nomatch hwindow.symm.trans hfalse

end BracketTable

end BracketMatching
