/-
What a run carries over a line start.

All readings that do not begin with the text begin at a line start, and take it for code.
So it matters where a run stands when it comes to one.  It comes to each of them, since no
step passes over a line feed; and there it is in code or inside of a block comment or a
verbatim string, unless it has just taken the line feed for an escaped character.

* `Text.exists_visits_of_le` — a run goes on to any line start ahead of it;
* `Text.step_onto_lineStart` — what the step is that comes to a line start: it reads the line
  feed as a line break, or as the second character of an escape;
* `Text.Visits.spansLines_or_escapesFeed` — so what a run is inside of there;
* `Text.exists_visits_lineStart` — **line starts are visited, and not in line comments**, and
  in a literal with escapes exactly behind an escaped line feed.

Design note: nothing is asked of the start of the run, which need not be a line start itself.
-/
import BracketMatching.Proofs.Constructs
import BracketMatching.Proofs.LineEndings

namespace BracketMatching

namespace Context

variable {ctx : Context} {before after : Option Glyph}

/-- Code, or the inside of what spans lines. -/
inductive SpansLines : Context → Prop
  | code : SpansLines .code
  | comment : SpansLines .comment
  | verbatimString : SpansLines .verbatimString

/-- What is left behind a line break spans lines. -/
theorem Sole.spansLines_brokenLine (h : ctx.Sole) : ctx.brokenLine.SpansLines := by
  obtain ⟨hstring, -, hcomment, -⟩ := h
  obtain ⟨string, char, verbatim, lineComment, blockComment⟩ := ctx
  cases verbatim with
  | true =>
    obtain rfl : string = true := hstring rfl
    obtain rfl : blockComment = false := by simp_all [inLiteral, inComment]
    exact .verbatimString
  | false =>
    -- A string that is not verbatim is over.
    have hbroken : brokenLine ⟨string, char, false, lineComment, blockComment⟩ =
        ⟨false, false, false, false, blockComment⟩ := by
      simp [brokenLine]
    rw [hbroken]
    cases blockComment with
    | true => exact .comment
    | false => exact .code

/-- Only strings and character literals have escapes. -/
theorem Sole.eq_of_escapes (h : ctx.Sole) (hesc : ctx.escapes = true) :
    ctx = Construct.string.context ∨ ctx = Construct.character.context := by
  obtain ⟨hstring, hchar, hcomment, -⟩ := h
  obtain ⟨string, char, verbatim, lineComment, blockComment⟩ := ctx
  simp only [escapes, Bool.or_eq_true, Bool.and_eq_true, Bool.not_eq_true'] at hesc
  rcases hesc with ⟨rfl, rfl⟩ | rfl
  · left
    simp_all [inLiteral, inComment, Construct.context]
  · right
    obtain rfl : string = false := by simpa using hchar
    simp_all [inLiteral, inComment, Construct.context]

theorem Sole.escapes_iff (h : ctx.Sole) :
    ctx.escapes = true ↔
      ctx = Construct.string.context ∨ ctx = Construct.character.context := by
  refine ⟨h.eq_of_escapes, ?_⟩
  rintro (rfl | rfl) <;> rfl

theorem SpansLines.escapes_eq_false (h : ctx.SpansLines) : ctx.escapes = false := by
  cases h <;> rfl

theorem SpansLines.lineComment_eq_false (h : ctx.SpansLines) : ctx.lineComment = false := by
  cases h <;> rfl

theorem step_backslash_of_escapes (h : ctx.escapes = true) :
    ctx.step before .backslash after = .two ctx := by
  show (if ctx.escapes = true then Step.two ctx else Step.one ctx) = Step.two ctx
  rw [if_pos h]

end Context

namespace Text

variable {t : Text} {ctx ctx' : Context} {i j k m start : Nat} {s : Step}

/-! ### The way to a line start -/

/-- A run goes on to any offset of the text, or past it. -/
theorem exists_reaches_of_le (ctx : Context) (hij : i ≤ j) (hj : j ≤ t.size) :
    ∃ k ctx', t.Reaches i ctx k ctx' ∧ j ≤ k := by
  induction hij with
  | refl => exact ⟨i, ctx, .here, le_refl i⟩
  | @step j _ ih =>
    obtain ⟨k, ctx', hr, hjk⟩ := ih (Nat.le_of_succ_le hj)
    rcases hjk.eq_or_lt with rfl | hlt
    · exact ⟨_, _, hr.step (step_of_lt hj), Nat.add_le_add_left (Step.consumed_pos _) j⟩
    · exact ⟨k, ctx', hr, hlt⟩

/-- A run visits each line start ahead of it. -/
theorem exists_visits_of_le (hi : t.IsLineStart i) (hs : start ≤ i) :
    ∃ ctx, t.Visits start i ctx := by
  obtain ⟨k, ctx', hr, hik⟩ := exists_reaches_of_le .code hs hi.le_size
  obtain ⟨ctx, hv, -⟩ := hr.exists_over_lineStart hi hs hik
  exact ⟨ctx, hv⟩

/-- **A step onto a line start** reads the line feed before it as a line break, or as the
second character of an escape. -/
theorem step_onto_lineStart (hfeed : t[m]? = some '\n') (hs : t.step ctx j = .ok s)
    (hm : j + s.consumed = m + 1) :
    s.next = ctx.brokenLine ∨ m = j + 1 ∧ t[j]? = some '\\' ∧ ctx.escapes = true := by
  have hpos := s.consumed_pos
  have htwo := consumed_le_two hs
  obtain ⟨c, hc, rfl⟩ := exists_getElem?_of_step hs
  by_cases hjm : j = m
  · subst hjm
    obtain rfl : c = '\n' := Option.some.inj (hc.symm.trans hfeed)
    exact .inl rfl
  · obtain rfl : m = j + 1 := by omega
    rw [glyph?_of_getElem? hfeed] at hm
    obtain ⟨hback, hesc⟩ := Context.escapes_of_consumed_two (Nat.add_left_cancel hm)
    exact .inr ⟨rfl, Glyph.ofChar_eq_backslash_iff.mp hback ▸ hc, hesc⟩

/-! ### What a run is inside of at a line start -/

/-- Where a run comes to a line start it has escaped the line feed, or is inside of what spans
lines. -/
theorem Visits.spansLines_or_escapesFeed (h : t.Visits start i ctx) (hi : t.IsLineStart i) :
    ctx.SpansLines ∨ ∃ k, i = k + 2 ∧ t.EscapesFeed start k := by
  cases h with
  | here => exact .inl .code
  | @step j ctx' s hr hs =>
    have hpos := s.consumed_pos
    obtain hzero | ⟨m, hm, hfeed⟩ := hi
    · omega
    · obtain hbroken | ⟨rfl, hback, hesc⟩ := step_onto_lineStart hfeed hs hm
      · rw [hbroken]
        exact .inl hr.sole.spansLines_brokenLine
      · exact .inr ⟨j, hm, ctx', hr, hesc, hback, hfeed⟩

/-- Behind an escaped line feed a run is inside of what it was inside of before. -/
theorem EscapesFeed.exists_visits (h : t.EscapesFeed start k) :
    ∃ ctx, t.Visits start (k + 2) ctx ∧ ctx.escapes = true := by
  obtain ⟨ctx, hv, hesc, hback, -⟩ := h
  have hstep : t.step ctx k = .ok (.two ctx) := by
    rw [step_of_getElem? hback]
    exact congrArg _ (Context.step_backslash_of_escapes hesc)
  exact ⟨ctx, hv.step hstep, hesc⟩

/-- **Readings meet at line starts.**  A run visits each line start ahead of it, and never in
a line comment: it is in code, in a block comment or in a verbatim string there, or, exactly
if it has just taken the line feed for an escaped character, in a string or a character
literal. -/
theorem exists_visits_lineStart (hi : t.IsLineStart i) (hs : start ≤ i) :
    ∃ ctx, t.Visits start i ctx ∧ ctx.lineComment = false ∧
      (ctx.SpansLines ∨ ctx = Construct.string.context ∨ ctx = Construct.character.context) ∧
      (ctx = Construct.string.context ∨ ctx = Construct.character.context ↔
        ∃ k, i = k + 2 ∧ t.EscapesFeed start k) := by
  obtain ⟨ctx, hv⟩ := exists_visits_of_le hi hs
  have hescapes : ctx.escapes = true ↔ ∃ k, i = k + 2 ∧ t.EscapesFeed start k := by
    constructor
    · intro hesc
      refine (hv.spansLines_or_escapesFeed hi).resolve_left fun hspans => ?_
      exact nomatch hesc.symm.trans hspans.escapes_eq_false
    · rintro ⟨k, rfl, hfeed⟩
      obtain ⟨ctx', hv', hesc⟩ := hfeed.exists_visits
      rwa [hv.context_unique hv']
  have hliteral := hv.sole.escapes_iff
  have hcases := (hv.spansLines_or_escapesFeed hi).imp_right fun h => hliteral.mp (hescapes.mpr h)
  refine ⟨ctx, hv, ?_, hcases, hliteral.symm.trans hescapes⟩
  rcases hcases with hspans | rfl | rfl
  · exact hspans.lineComment_eq_false
  · rfl
  · rfl

/-- A string that is continued on the next line. -/
def continuedStringText : Text := .ofString "x = \"a\\\nb\";"

theorem exists_visits_lineStart_continuedStringText :
    (continuedStringText.IsLineStart 8 ∧ 0 ≤ 8) ∧
      continuedStringText.Visits 0 8 Construct.string.context ∧
      ∃ k, 8 = k + 2 ∧ continuedStringText.EscapesFeed 0 k := by
  have hi : continuedStringText.IsLineStart 8 := by decide +kernel
  have hv : continuedStringText.Visits 0 8 Construct.string.context :=
    contextAt_eq_some_iff.mp (by decide +kernel)
  obtain ⟨ctx, hv', -, -, hliteral⟩ := exists_visits_lineStart hi (Nat.zero_le 8)
  obtain rfl := hv.context_unique hv'
  exact ⟨⟨hi, Nat.zero_le 8⟩, hv, hliteral.mp (.inl rfl)⟩

end Text

end BracketMatching
