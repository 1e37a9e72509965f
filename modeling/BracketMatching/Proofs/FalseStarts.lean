/-
Line starts that show that they are not code.

Comments and verbatim strings span lines, and a window may start inside of one.
Its reading takes the rest of the construct for code, and is good for nothing
unless it runs into a contradiction.  Two kinds of constructs make sure that it
does:

* `Text.InMildComment` — a block comment without quotes, apostrophes and slashes:
  its reading stays in code until it meets the end of the comment;
* `Text.InMildString` — a verbatim string without apostrophes, slashes and at
  signs, closed at the end of a line: its reading takes every doubled quote for
  a string of its own, the closing quote for an opening one, and meets the line
  break in that string;
* `Text.exists_contradicts_of_mild` — so the reading contradicts itself before
  the next offset in code.

Design note: a construct is described by the run from the beginning alone, as
what it is inside of between a step out of code and a step back into it
(`Text.Encloses`).
-/
import BracketMatching.Proofs.WindowReading

namespace BracketMatching

namespace Context

variable {before after : Option Glyph} {here : Glyph}

theorem opens_comment (h : (code.step before here after).next.blockComment = true) :
    here = .slash ∧ after = some .star := by
  revert h
  unfold step stepSlash stepQuote brokenLine
  grind [Step.one, Step.two, code]

theorem opens_verbatimString (h : (code.step before here after).next.verbatim = true) :
    here = .quote ∧ before = some .atSign := by
  revert h
  unfold step stepSlash stepQuote brokenLine
  grind [Step.one, Step.two, code]

theorem closes_comment (h : (comment.step before here after).next.isCode = true) :
    here = .star ∧ after = some .slash := by
  revert h
  unfold step stepSlash stepQuote brokenLine
  grind [Step.one, Step.two, comment, isCode, inLiteral, inComment, escapes]

theorem step_verbatimString_of_ne (h : here ≠ .quote) :
    verbatimString.step before here after = .one verbatimString := by
  cases here <;> first | rfl | exact absurd rfl h

theorem step_verbatimString_quote :
    verbatimString.step before .quote after =
      if after = some .quote then .two verbatimString else .one code :=
  rfl

theorem step_code_quote (h : before ≠ some .atSign) :
    code.step before .quote after = .one { string := true } := by
  have hv : decide (before = some Glyph.atSign) = false := decide_eq_false h
  show Step.one { code with string := true, verbatim := decide (before = some .atSign) } = _
  rw [hv]
  rfl

end Context

namespace Text

variable {t : Text} {inside : Context → Bool} {o e i j k s : Nat} {ctx : Context} {c : Char}

/-! ### Constructs -/

/-- The run from the beginning steps out of code at `o`, is `inside` of something
wherever it comes to until `e`, and steps back into code there. -/
structure Encloses (t : Text) (inside : Context → Bool) (o e : Nat) : Prop where
  lt : o < e
  opened : t.VisitsCode 0 o
  within : ∀ i ctx, o < i → i ≤ e → t.Visits 0 i ctx → inside ctx = true
  closed : ∃ ctx s, t.Visits 0 e ctx ∧ t.step ctx e = .ok s ∧ s.next.isCode = true

instance decidableEncloses (t : Text) (inside : Context → Bool) (o e : Nat) :
    Decidable (t.Encloses inside o e) :=
  decidable_of_iff
    (o < e ∧ t.VisitsCode 0 o ∧
      (∀ i, i < e + 1 → o < i → ∀ ctx ∈ t.contextAt i .code 0, inside ctx = true) ∧
      ∃ ctx ∈ t.contextAt e .code 0, ∃ s ∈ (t.step ctx e).toOption, s.next.isCode = true)
    (by
      have hstep : ∀ ctx s, s ∈ (t.step ctx e).toOption ↔ t.step ctx e = .ok s := by
        intro ctx s
        cases t.step ctx e <;> simp [Except.toOption]
      simp only [hstep]
      simp only [Option.mem_def, contextAt_eq_some_iff]
      exact ⟨fun ⟨h1, h2, h3, ctx, h4, s, h5, h6⟩ =>
          ⟨h1, h2, fun i ctx hoi hie => h3 i (Nat.lt_succ_of_le hie) hoi ctx, ctx, s, h4, h5, h6⟩,
        fun ⟨h1, h2, h3, ctx, s, h4, h5, h6⟩ =>
          ⟨h1, h2, fun i hie hoi ctx => h3 i ctx hoi (Nat.le_of_lt_succ hie), ctx, h4, s, h5, h6⟩⟩)

namespace Encloses

/-- The first step inside. -/
theorem exists_first (h : t.Encloses inside o e) :
    ∃ s, t.step .code o = .ok s ∧ o + s.consumed ≤ e ∧ inside s.next = true := by
  obtain ⟨ctx, -, hv, -⟩ := h.closed
  have ho := visitsCode_iff.mp h.opened
  have hlt := h.lt
  rcases ho.linear hv with hr | hr
  · obtain ⟨rfl, -⟩ | ⟨s, hs, hr⟩ := hr.eq_or_head
    · omega
    · have hpos := s.consumed_pos
      exact ⟨s, hs, hr.le, h.within _ _ (by omega) hr.le (ho.step hs)⟩
  · have := hr.le
    omega

/-- The next offset in code lies behind. -/
theorem lt_of_visitsCode (h : t.Encloses inside o e) (hin : inside .code = false) (hk : o < k)
    (hcode : t.VisitsCode 0 k) : e < k := by
  by_contra hle
  rw [h.within k .code hk (by omega) (visitsCode_iff.mp hcode)] at hin
  exact nomatch hin

end Encloses

/-! ### Block comments -/

/-- The offset `s` lies in a block comment that has no quote, apostrophe or slash
between its markers. -/
def InMildComment (t : Text) (s : Nat) : Prop :=
  ∃ o e, t.Encloses Context.blockComment o e ∧ o < s ∧ s ≤ e ∧
    ∀ i, i < e → o + 2 ≤ i → t.glyph? i ∉ [some .quote, some .apostrophe, some .slash]

namespace Encloses

/-- A block comment begins with a slash and a star, and ends with its end. -/
theorem markers (h : t.Encloses Context.blockComment o e) :
    t.glyph? o = some .slash ∧ t.glyph? (o + 1) = some .star ∧ t.closesBlockAt e = true := by
  obtain ⟨s, hs, -, hin⟩ := h.exists_first
  obtain ⟨c, hc, rfl⟩ := exists_getElem?_of_step hs
  obtain ⟨hslash, hstar⟩ := Context.opens_comment hin
  obtain ⟨ctx, s, hv, hs, hcode⟩ := h.closed
  obtain ⟨d, hd, rfl⟩ := exists_getElem?_of_step hs
  rw [hv.sole.eq_comment (h.within e ctx h.lt (le_refl e) hv)] at hcode
  obtain ⟨hstar', hslash'⟩ := Context.closes_comment hcode
  refine ⟨hslash ▸ glyph?_of_getElem? hc, hstar, ?_⟩
  rw [closesBlockAt, glyph?_of_getElem? hd, hstar', hslash']
  rfl

end Encloses

/-- Up to the end of a mild comment nothing starts a literal or another comment. -/
theorem unmarked_of_mild (hend : t.closesBlockAt e = true)
    (hcontent : ∀ i, i < e → s ≤ i → t.glyph? i ∉ [some .quote, some .apostrophe, some .slash]) :
    t.Unmarked s e := by
  have hstar : t.glyph? e = some .star := (of_decide_eq_true hend).1
  have hlt := lt_size_of_glyph? hstar
  intro i hsi hie
  have hget : t[i]? = some t[i] := Array.getElem?_eq_getElem (hie.trans hlt)
  have hcont := hcontent i hie hsi
  rw [glyph?_of_getElem? hget] at hcont
  -- A star in the content is not followed by a slash: the content has none, nor the end.
  have hnext : t.glyph? (i + 1) ≠ some .slash := by
    intro hn
    by_cases hlast : i + 1 = e
    · rw [hlast, hstar] at hn
      exact nomatch hn
    · exact absurd (by simp [hn]) (hcontent (i + 1) (by omega) (by omega))
  refine marksAt_of_glyph? (glyph?_of_getElem? hget) ?_
  unfold Glyph.startsMark
  grind

theorem exists_contradicts_of_inMildComment (hs : t.IsLineStart s) (h : t.InMildComment s)
    (hk : t.VisitsCode 0 k) (hsk : s ≤ k) : ∃ i, i < k ∧ t.Contradicts s i := by
  obtain ⟨o, e, h, hos, hse, hcontent⟩ := h
  obtain ⟨hslash, hstar, hend⟩ := h.markers
  -- No line starts within a marker.
  have hos2 : o + 2 ≤ s := by
    obtain rfl | ⟨j, rfl, hj⟩ := hs
    · omega
    · have hfeed : t.glyph? j = some .lineFeed := glyph?_of_getElem? hj
      have ho : j ≠ o := by
        rintro rfl
        exact nomatch hfeed.symm.trans hslash
      have ho' : j ≠ o + 1 := by
        rintro rfl
        exact nomatch hfeed.symm.trans hstar
      omega
  have hm : t.Unmarked s e := unmarked_of_mild hend fun i hie hsi => hcontent i hie (hos2.trans hsi)
  exact ⟨e, h.lt_of_visitsCode rfl (by omega) hk, .code, Reaches.code_of_unmarked hm hse,
    .inl ⟨rfl, hend⟩⟩

/-! ### Verbatim strings -/

/-- The offset `s` lies in a verbatim string that has no apostrophe, slash or at
sign between its quotes, and whose closing quote ends its line. -/
def InMildString (t : Text) (s : Nat) : Prop :=
  ∃ o e, t.Encloses Context.verbatim o e ∧ o < s ∧ s ≤ e ∧
    (∀ i, i < e → o < i → t.glyph? i ∉ [some .apostrophe, some .slash, some .atSign]) ∧
    t.glyph? (e + 1) = some .lineFeed

namespace Encloses

/-- A verbatim string begins with a quote, and ends with a quote that is not
doubled. -/
theorem quotes (h : t.Encloses Context.verbatim o e) :
    t.glyph? o = some .quote ∧ t.glyph? e = some .quote := by
  obtain ⟨s, hs, -, hin⟩ := h.exists_first
  obtain ⟨c, hc, rfl⟩ := exists_getElem?_of_step hs
  obtain ⟨hquote, -⟩ := Context.opens_verbatimString hin
  obtain ⟨ctx, s, hv, hs, hcode⟩ := h.closed
  obtain ⟨d, hd, rfl⟩ := exists_getElem?_of_step hs
  rw [hv.sole.eq_verbatimString (h.within e ctx h.lt (le_refl e) hv)] at hcode
  refine ⟨hquote ▸ glyph?_of_getElem? hc, ?_⟩
  by_contra hne
  rw [glyph?_of_getElem? hd, Option.some_inj] at hne
  rw [Context.step_verbatimString_of_ne hne] at hcode
  exact nomatch hcode

end Encloses

/-- A step inside of a verbatim string that stays inside is a step in code, or, at
a doubled quote, one into a string and one out of it. -/
theorem reaches_code_of_step_verbatimString {s : Step}
    (hs : t.step .verbatimString i = .ok s) (hin : s.next.verbatim = true)
    (hi : t.glyph? i ∉ [some .apostrophe, some .slash, some .atSign])
    (hbefore : t.glyphBefore? i ≠ some .atSign) (hafter : t.glyph? (i + 1) ≠ some .slash) :
    t.Reaches i .code (i + s.consumed) .code := by
  obtain ⟨c, hc, rfl⟩ := exists_getElem?_of_step hs
  rw [glyph?_of_getElem? hc] at hi
  by_cases hq : Glyph.ofChar c = .quote
  · rw [hq, Context.step_verbatimString_quote] at hin ⊢
    split at hin
    · next hdouble =>
      rw [if_pos hdouble]
      obtain ⟨d, hd, hdq⟩ := Option.map_eq_some_iff.mp hdouble
      have hopen : t.step .code i = .ok (.one { string := true }) := by
        rw [step_of_getElem? hc, hq, Context.step_code_quote hbefore]
      have hclose : t.step { string := true } (i + 1) = .ok (.one .code) := by
        rw [step_of_getElem? hd, hdq]
        rfl
      exact (Reaches.here.step hopen).step hclose
    · exact nomatch hin
  · rw [Context.step_verbatimString_of_ne hq]
    refine Reaches.here.step (step_code_of_marksAt ?_)
    refine marksAt_of_glyph? (glyph?_of_getElem? hc) ?_
    unfold Glyph.startsMark
    grind

/-- On the lines inside of a mild string no character follows an at sign. -/
theorem glyphBefore?_ne_atSign (hs : t.IsLineStart s) (hos : o < s)
    (hcontent : ∀ i, i < e → o < i → t.glyph? i ∉ [some .apostrophe, some .slash, some .atSign])
    (hsj : s ≤ j) (hje : j ≤ e) : t.glyphBefore? j ≠ some .atSign := by
  obtain ⟨m, rfl⟩ : ∃ m, j = m + 1 := ⟨j - 1, by omega⟩
  intro hat
  replace hat : t.glyph? m = some .atSign := hat
  rcases hsj.eq_or_lt with rfl | hlt
  · -- Before the first character of the line there is a line feed.
    obtain hzero | ⟨i, hi, hfeed⟩ := hs
    · omega
    · obtain rfl : m = i := Nat.succ.inj hi
      exact nomatch hat.symm.trans (glyph?_of_getElem? hfeed)
  · exact absurd (by simp [hat]) (hcontent m (by omega) (by omega))

/-- The reading of a mild string as code is in code wherever the run is. -/
theorem visitsCode_of_inMildString (h : t.Encloses Context.verbatim o e) (hs : t.IsLineStart s)
    (hos : o < s)
    (hcontent : ∀ i, i < e → o < i → t.glyph? i ∉ [some .apostrophe, some .slash, some .atSign])
    (hv : t.Visits 0 s .verbatimString) (hr : t.Reaches s .verbatimString i ctx) (hie : i ≤ e) :
    t.VisitsCode s i := by
  have hend := h.quotes.2
  induction hr with
  | here => exact t.visitsCode_self s
  | @step j ctx r hr hstep ih =>
    have hpos := r.consumed_pos
    have hsj := hr.le
    have hj := hv.trans hr
    obtain rfl := hj.sole.eq_verbatimString (h.within j ctx (by omega) (by omega) hj)
    have hin := h.within _ _ (by omega) hie (hj.step hstep)
    have hafter : t.glyph? (j + 1) ≠ some .slash := by
      intro hslash
      -- The character behind the last one of the content is the closing quote.
      by_cases hlast : j + 1 = e
      · rw [hlast, hend] at hslash
        exact nomatch hslash
      · exact absurd (by simp [hslash]) (hcontent (j + 1) (by omega) (by omega))
    have hread := reaches_code_of_step_verbatimString hstep hin (hcontent j (by omega) (by omega))
      (glyphBefore?_ne_atSign hs hos hcontent hsj (by omega)) hafter
    exact ⟨.code, (visitsCode_iff.mp (ih (by omega))).trans hread, rfl⟩

theorem exists_contradicts_of_inMildString (hs : t.IsLineStart s) (h : t.InMildString s)
    (hk : t.VisitsCode 0 k) (hkg : t.glyph? k ≠ some .lineFeed) (hsk : s ≤ k) :
    ∃ i, i < k ∧ t.Contradicts s i := by
  obtain ⟨o, e, h, hos, hse, hcontent, hfeed⟩ := h
  have hek := h.lt_of_visitsCode rfl (by omega) hk
  have hne : k ≠ e + 1 := by
    rintro rfl
    exact hkg hfeed
  obtain ⟨ctx, -, hv, -⟩ := h.closed
  obtain ⟨ctx', hs', hr⟩ := hv.exists_over_lineStart hs (Nat.zero_le s) hse
  obtain rfl := hs'.sole.eq_verbatimString (h.within s ctx' hos hse hs')
  have hcode := visitsCode_of_inMildString h hs hos hcontent hs' hr (le_refl e)
  -- The closing quote opens a string, which the end of the line cuts off.
  obtain ⟨d, hd, hdq⟩ := Option.map_eq_some_iff.mp h.quotes.2
  obtain ⟨f, hf, hfq⟩ := Option.map_eq_some_iff.mp hfeed
  have hopen : t.step .code e = .ok (.one { string := true }) := by
    rw [step_of_getElem? hd, hdq,
      Context.step_code_quote (glyphBefore?_ne_atSign hs hos hcontent hse (le_refl e))]
  have hbreak : t.BreaksLine (e + 1) := ⟨f, hf, by rw [hfq]; rfl⟩
  exact ⟨e + 1, by omega, { string := true }, (visitsCode_iff.mp hcode).step hopen,
    .inr ⟨hbreak, rfl⟩⟩

/-- **A line start inside of a mild construct gives itself away** before the next
bracket in code. -/
theorem exists_contradicts_of_mild (hs : t.IsLineStart s)
    (h : t.InMildComment s ∨ t.InMildString s) (hk : t.VisitsCode 0 k) (hg : t.glyph? k = some .plain)
    (hsk : s ≤ k) : ∃ i, i < k ∧ t.Contradicts s i := by
  rcases h with h | h
  · exact exists_contradicts_of_inMildComment hs h hk hsk
  · exact exists_contradicts_of_inMildString hs h hk (by rw [hg]; exact nofun) hsk

end Text

end BracketMatching
