/-
What the reading of a window says.

A window is read as if it began in code.  This file says what its verdict is, in
terms of the run that starts as code where the window does, and of nothing else:

* `Text.Contradicts` — the run meets a sign that it should not have started as
  code: the end of a block comment in code, or a line break that cuts a literal
  off;
* `Text.StopsAt` — where a reading breaks off, which in a window that starts
  with the text is only at the first of these signs;
* `Text.answersWindow` — a reading that breaks off nowhere finds the last opener
  in code that waits for the closer, provided that it visits the closer in code.

The stack of the reading is `Sides.Stacked`, and the verdict is read off its top.
-/
import BracketMatching.Proofs.CodeRun
import BracketMatching.Scan.Window

namespace BracketMatching

/-- The verdict on a closer that is code, with its opener if there is one. -/
def Verdict.ofOpener : Option Nat → Verdict
  | some offset => .opener offset
  | none => .noOpener

/-- The verdict of a window whose reading breaks off. -/
def Verdict.stopped (windowStart : Nat) : Verdict :=
  if windowStart = 0 then .outOfContext else .falseStart

namespace Text

variable {t : Text} {b : Bracket} {region : Region} {ctx : Context} {w last i j : Nat}
  {stack : List Nat} {c : Char} {s : Step}

/-! ### Signs of a false start -/

/-- At `i`, the run from `w` shows that `w` is not code. -/
def Contradicts (t : Text) (w i : Nat) : Prop :=
  ∃ ctx, t.Visits w i ctx ∧
    (ctx.isCode = true ∧ t.closesBlockAt i = true ∨
      t.BreaksLine i ∧ ctx.cutByLineBreak = true)

instance decidableContradicts (t : Text) (w i : Nat) : Decidable (t.Contradicts w i) :=
  decidable_of_iff
    (∃ ctx ∈ t.contextAt i .code w, ctx.isCode = true ∧ t.closesBlockAt i = true ∨
      t.BreaksLine i ∧ ctx.cutByLineBreak = true)
    (by simp only [Option.mem_def, contextAt_eq_some_iff, Contradicts, Visits])

/-- At `i`, the reading of the window from `w` breaks off.  At the beginning of
the text a literal that is cut off is none. -/
def StopsAt (t : Text) (w i : Nat) : Prop :=
  ∃ ctx, t.Visits w i ctx ∧
    (ctx.isCode = true ∧ t.closesBlockAt i = true ∨
      w ≠ 0 ∧ t.BreaksLine i ∧ ctx.cutByLineBreak = true)

theorem Contradicts.stopsAt (h : t.Contradicts w i) (hw : w ≠ 0) : t.StopsAt w i := by
  obtain ⟨ctx, hv, hsign⟩ := h
  exact ⟨ctx, hv, hsign.imp_right fun hcut => ⟨hw, hcut⟩⟩

theorem StopsAt.le (h : t.StopsAt w i) : w ≤ i := by
  obtain ⟨ctx, hv, -⟩ := h
  exact Reaches.le hv

theorem StopsAt.contradicts (h : t.StopsAt w i) : t.Contradicts w i := by
  obtain ⟨ctx, hv, hsign⟩ := h
  exact ⟨ctx, hv, hsign.imp_right And.right⟩

/-- A reading that a step does not stop is not stopped before the end of the step: the run
comes to nothing in between. -/
theorem StopsAt.add_consumed_le (hj : t.StopsAt w j) (h : t.Visits w i ctx)
    (hs : t.step ctx i = .ok s) (hi : ¬ t.StopsAt w i) (hij : i ≤ j) : i + s.consumed ≤ j := by
  obtain ⟨c, hv, -⟩ := id hj
  refine (Reaches.le_or_le_of_step h hs hv).resolve_left fun hji => ?_
  obtain rfl : j = i := Nat.le_antisymm hji hij
  exact absurd hj hi

/-! ### The reading, step by step -/

theorem readWindowFrom_of_bracket (hi : i ≤ last) (h : t[i]? = some c)
    (hc : (b.has c && region.admits ctx) = true) :
    t.readWindowFrom b region w last stack ctx i =
      t.readWindowFrom b region w last (if c = b.opener then i :: stack else stack.tail) ctx
        (i + 1) := by
  rw [readWindowFrom.eq_def, if_pos hi, read_eq_ok_iff.mpr h]
  simp only [bind, Except.bind, hc, ↓reduceIte]

theorem readWindowFrom_of_stray (hi : i ≤ last) (h : t[i]? = some c)
    (hc : (b.has c && region.admits ctx) = false)
    (hstray : (ctx.isCode && t.closesBlockAt i) = true) :
    t.readWindowFrom b region w last stack ctx i = .ok (.stopped w) := by
  rw [readWindowFrom.eq_def, if_pos hi, read_eq_ok_iff.mpr h]
  simp only [bind, Except.bind, hc, hstray, Bool.false_eq_true, ↓reduceIte]
  rfl

theorem readWindowFrom_of_step (hi : i ≤ last) (h : t[i]? = some c)
    (hc : (b.has c && region.admits ctx) = false)
    (hstray : (ctx.isCode && t.closesBlockAt i) = false) (hs : t.step ctx i = .ok s) :
    t.readWindowFrom b region w last stack ctx i =
      if ((Glyph.ofChar c).isLineBreak && ctx.cutByLineBreak && w != 0) = true then
        .ok .falseStart
      else
        t.readWindowFrom b region w last
          (if region = .literal ∧ s.next.inLiteral = true ∧ ctx.inLiteral = false then []
            else stack) s.next (i + s.consumed) := by
  rw [readWindowFrom.eq_def, if_pos hi, read_eq_ok_iff.mpr h]
  simp only [bind, Except.bind, hc, hstray, hs, Bool.false_eq_true, ↓reduceIte]
  rfl

theorem readWindowFrom_past (hi : last < i) :
    t.readWindowFrom b region w last stack ctx i =
      if (decide (last + 1 < i) || !region.admits ctx) = true then .ok .outOfContext
      else .ok (.ofOpener stack.head?) := by
  rw [readWindowFrom.eq_def, if_neg (Nat.not_le.mpr hi)]
  cases stack <;> rfl

/-! ### The verdict -/

/-- What a window that is read from `w` up to `last` has to say, if its reading has
come to `i`. -/
structure AnswersWindow (t : Text) (b : Bracket) (w last i : Nat)
    (answer : Except Fault Verdict) : Prop where
  /-- It breaks off at the first sign of a false start. -/
  stopped : ∀ j, i ≤ j → j ≤ last → t.StopsAt w j → answer = .ok (.stopped w)
  /-- Without one, the closer may turn out not to be code. -/
  missed : (∀ j, i ≤ j → j ≤ last → ¬ t.StopsAt w j) → ¬ t.VisitsCode w (last + 1) →
    answer = .ok .outOfContext
  /-- If it is code, its opener is found, or shown not to be in the window. -/
  found : (∀ j, i ≤ j → j ≤ last → ¬ t.StopsAt w j) → t.VisitsCode w (last + 1) →
    ∃ r, answer = .ok (.ofOpener r) ∧
      (t.codeSides b w).LastOpener ((t.codeSides b w).height (last + 1)) w (last + 1) r

/-- A step that breaks nothing off passes the answer on. -/
theorem AnswersWindow.of_step {answer : Except Fault Verdict} (h : t.Visits w i ctx)
    (hs : t.step ctx i = .ok s) (hi : ¬ t.StopsAt w i)
    (hnext : t.AnswersWindow b w last (i + s.consumed) answer) :
    t.AnswersWindow b w last i answer := by
  refine ⟨fun j h1 h2 hj => hnext.stopped j (hj.add_consumed_le h hs hi h1) h2 hj,
    fun hno => ?_, fun hno => ?_⟩
  · exact hnext.missed fun j h1 => hno j (Nat.le_of_add_right_le h1)
  · exact hnext.found fun j h1 => hno j (Nat.le_of_add_right_le h1)

theorem answersWindow_of_stopsAt (hi : i ≤ last) (h : t.StopsAt w i) :
    t.AnswersWindow b w last i (.ok (.stopped w)) :=
  ⟨fun _ _ _ _ => rfl, fun hno => absurd h (hno i (le_refl i) hi),
    fun hno => absurd h (hno i (le_refl i) hi)⟩

/-- Past the end of the window the answer is on top of the stack. -/
theorem answersWindow_past (hi : last < i) (h : t.Visits w i ctx)
    (hpast : i = last + 1 ∨ ¬ t.VisitsCode w (last + 1))
    (hstack : (t.codeSides b w).Stacked w i stack) :
    t.AnswersWindow b w last i (t.readWindowFrom b .code w last stack ctx i) := by
  -- The test that the reading makes is whether the closer is visited in plain code.
  have hcode : t.VisitsCode w (last + 1) ↔
      (decide (last + 1 < i) || !Region.code.admits ctx) = false := by
    rcases Nat.lt_or_eq_of_le (Nat.succ_le_of_lt hi) with hlt | rfl
    · simp only [hpast.resolve_left (by omega), hlt, decide_true, Bool.true_or, Bool.true_eq_false]
    · have hadmits : Region.code.admits ctx = ctx.isCode := rfl
      rw [decide_eq_false (Nat.lt_irrefl _), Bool.false_or, hadmits, Bool.not_eq_false']
      exact ⟨fun ⟨c, hv, hc⟩ => h.context_unique hv ▸ hc, fun hc => ⟨ctx, h, hc⟩⟩
  rw [readWindowFrom_past hi]
  refine ⟨fun j h1 h2 => by omega, fun _ hmissed => ?_, fun _ hfound => ?_⟩
  · rw [hcode, Bool.not_eq_false] at hmissed
    rw [if_pos hmissed]
  · obtain rfl : i = last + 1 := hpast.resolve_right (not_not_intro hfound)
    refine ⟨stack.head?, ?_, hstack.head⟩
    rw [hcode.mp hfound, if_neg Bool.false_ne_true]

theorem stopsAt_iff (h : t.Visits w i ctx) (hget : t[i]? = some c) :
    t.StopsAt w i ↔ (ctx.isCode && t.closesBlockAt i) = true ∨
      ((Glyph.ofChar c).isLineBreak && ctx.cutByLineBreak && w != 0) = true := by
  have hbreak := breaksLine_iff hget
  simp only [Bool.and_eq_true, bne_iff_ne]
  constructor
  · rintro ⟨ctx', hv, hsign⟩
    rw [h.context_unique hv]
    rcases hsign with hstray | ⟨hw, hline, hcut⟩
    · exact .inl hstray
    · exact .inr ⟨⟨hbreak.mp hline, hcut⟩, hw⟩
  · rintro (hstray | ⟨⟨hline, hcut⟩, hw⟩)
    · exact ⟨ctx, h, .inl hstray⟩
    · exact ⟨ctx, h, .inr ⟨hw, hbreak.mpr hline, hcut⟩⟩

theorem not_stopsAt_of_plain (h : t.Visits w i ctx) (hget : t[i]? = some c)
    (hplain : Glyph.ofChar c = .plain) : ¬ t.StopsAt w i := by
  rw [stopsAt_iff h hget, closesBlockAt_of_plain hget hplain, hplain, Bool.and_false]
  exact fun hor => hor.elim Bool.false_ne_true Bool.false_ne_true

/-- At a bracket that counts, the reading goes on with the stack changed. -/
theorem answersWindow_of_bracket (hb : b.Usable) (hi : i ≤ last) (hget : t[i]? = some c)
    (hcount : (b.has c && ctx.isCode) = true) (h : t.Visits w i ctx)
    (hstack : (t.codeSides b w).Stacked w i stack)
    (hnext : ∀ stack', (t.codeSides b w).Stacked w (i + 1) stack' →
      t.AnswersWindow b w last (i + 1) (t.readWindowFrom b .code w last stack' ctx (i + 1))) :
    t.AnswersWindow b w last i (t.readWindowFrom b .code w last stack ctx i) := by
  obtain ⟨hhas, hcode⟩ := Bool.and_eq_true_iff.mp hcount
  have hplain := hb.plain_of_has hhas
  have hside : t.codeSides b w i = b.side? c := by
    rw [codeSides_of_visitsCode ⟨ctx, h, hcode⟩, sides_of_getElem? hget]
  rw [readWindowFrom_of_bracket hi hget hcount]
  refine .of_step h (step_of_plain hget hplain) (not_stopsAt_of_plain h hget hplain)
    (hnext _ ?_)
  rcases Bracket.has_iff.mp hhas with hc | hc
  · rw [if_pos hc]
    exact hstack.push h.le (hside.trans (Bracket.side?_eq_forward.mpr hc))
  · rw [if_neg (hc ▸ hb.opener_ne_closer.symm)]
    exact hstack.pop (hside.trans ((Bracket.side?_eq_backward hb.opener_ne_closer).mpr hc))

/-- Where no bracket counts, the reading takes the step of the run, or stops. -/
theorem answersWindow_of_other (hi : i ≤ last) (hget : t[i]? = some c)
    (hcount : (b.has c && ctx.isCode) = false) (h : t.Visits w i ctx) (hs : t.step ctx i = .ok s)
    (hstack : (t.codeSides b w).Stacked w i stack)
    (hnext : (t.codeSides b w).Stacked w (i + s.consumed) stack →
      t.AnswersWindow b w last (i + s.consumed)
        (t.readWindowFrom b .code w last stack s.next (i + s.consumed))) :
    t.AnswersWindow b w last i (t.readWindowFrom b .code w last stack ctx i) := by
  have hstops := stopsAt_iff h hget
  have hnone := codeSides_of_not_counted h hget hcount
  rcases hstray : ctx.isCode && t.closesBlockAt i with _ | _
  · rw [readWindowFrom_of_step hi hget hcount hstray hs]
    rcases hcut : (Glyph.ofChar c).isLineBreak && ctx.cutByLineBreak && w != 0 with _ | _
    · have hgo : ¬ t.StopsAt w i := by
        rw [hstops, hstray, hcut]
        exact fun hor => hor.elim Bool.false_ne_true Bool.false_ne_true
      rw [if_neg Bool.false_ne_true, if_neg fun hlit => absurd hlit.1 (by decide)]
      exact .of_step h hs hgo (hnext (hstack.skip (Nat.le_add_right i _)
        fun m => codeSides_of_step h hs hnone))
    · have hverdict : Verdict.stopped w = .falseStart := by
        rw [Bool.and_eq_true, bne_iff_ne] at hcut
        exact if_neg hcut.2
      rw [if_pos rfl, ← hverdict]
      exact answersWindow_of_stopsAt hi (hstops.mpr (.inr hcut))
  · rw [readWindowFrom_of_stray hi hget hcount hstray]
    exact answersWindow_of_stopsAt hi (hstops.mpr (.inl hstray))

theorem answersWindowFrom (hb : b.Usable) (hlast : last < t.size) (h : t.Visits w i ctx)
    (hpast : i ≤ last + 1 ∨ ¬ t.VisitsCode w (last + 1))
    (hstack : (t.codeSides b w).Stacked w i stack) :
    t.AnswersWindow b w last i (t.readWindowFrom b .code w last stack ctx i) := by
  induction hn : last + 1 - i using Nat.strong_induction_on generalizing i ctx stack with
  | _ n ih =>
  by_cases hi : i ≤ last
  · have hlt := hi.trans_lt hlast
    have hget : t[i]? = some t[i] := Array.getElem?_eq_getElem hlt
    obtain ⟨s, hs⟩ : ∃ s, t.step ctx i = .ok s := ⟨_, step_of_lt hlt⟩
    have hpos := s.consumed_pos
    rcases hcount : b.has t[i] && ctx.isCode with _ | _
    · refine answersWindow_of_other hi hget hcount h hs hstack fun hstack' => ?_
      -- A step of two may pass over the closer, which is then not visited at all.
      refine ih _ (by omega) (h.step hs) ?_ hstack' rfl
      by_cases hle : i + s.consumed ≤ last + 1
      · exact .inl hle
      · exact .inr (not_visits_of_step h hs (by omega) (by omega))
    · refine answersWindow_of_bracket hb hi hget hcount h hstack fun stack' hstack' => ?_
      have hplain := hb.plain_of_has (Bool.and_eq_true_iff.mp hcount).1
      exact ih _ (by omega) (h.step (step_of_plain hget hplain)) (.inl (by omega)) hstack' rfl
  · exact answersWindow_past (by omega) h (hpast.imp_left fun hle => by omega) hstack

/-- **The reading of a window** says what the run says that starts as code where
the window does. -/
theorem answersWindow (hb : b.Usable) (hlast : last < t.size) (hw : w ≤ last + 1) :
    t.AnswersWindow b w last w (t.readWindow b .code w last) :=
  answersWindowFrom hb hlast .here (.inl hw) (.nil _ w)

end Text

end BracketMatching
