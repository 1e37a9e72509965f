/-
Code: what a run that starts as code visits as code.

The statements about searches speak of offsets that a run *visits in plain
code*, of the brackets among them, and of how many of these lie between two
offsets.  This file defines the three and relates them to single steps:

* `Text.VisitsCode` — the run from `start` comes to an offset outside of every
  literal and comment (`Text.visitsCode_iff`: it does so in `Context.code`);
* `Text.codeSides` — the brackets that such a run visits in plain code, as the
  line of brackets that nesting is about;
* `Text.CodePairs` — two brackets of the text in plain code, with equally many
  openers and closers in plain code between (`Text.codePairs_iff`);
* `Text.Reaches.code_of_unmarked`, `Text.Reaches.isCode_of_unmarked` — where no
  quote and no comment marker starts, a run neither leaves code nor, short of a
  line break, enters it;
* `Text.Reaches.exists_over_lineStart` — a run steps over no line start.
-/
import BracketMatching.Bracket.Table
import BracketMatching.Lexing.Site
import BracketMatching.Proofs.Nesting
import BracketMatching.Scan.Glance

namespace BracketMatching

/-! ### Brackets -/

namespace Bracket

/-- A bracket whose two characters differ and mean nothing to the lexing rules. -/
structure Usable (b : Bracket) : Prop where
  opener_plain : Glyph.ofChar b.opener = .plain
  closer_plain : Glyph.ofChar b.closer = .plain
  opener_ne_closer : b.opener ≠ b.closer

/-- The side on which `c` has its partner, if it is one of the two characters. -/
def side? (b : Bracket) (c : Char) : Option Direction :=
  if c = b.opener then some .forward else if c = b.closer then some .backward else none

variable {b : Bracket} {c : Char}

theorem side?_eq_forward : b.side? c = some .forward ↔ c = b.opener := by
  unfold side?
  split <;> simp_all

theorem side?_eq_backward (h : b.opener ≠ b.closer) :
    b.side? c = some .backward ↔ c = b.closer := by
  unfold side?
  grind

theorem side?_eq_none : b.side? c = none ↔ b.has c = false := by
  unfold side?
  rw [← Bool.not_eq_true, has_iff]
  grind

theorem Usable.plain_of_has (h : b.Usable) (hc : b.has c = true) : Glyph.ofChar c = .plain := by
  rcases has_iff.mp hc with rfl | rfl
  · exact h.opener_plain
  · exact h.closer_plain

end Bracket

namespace BracketTable

theorem usable_of_mem {table : BracketTable} {b : Bracket} (h : b ∈ table.brackets) :
    b.Usable := by
  have ho : b.opener ∈ table.brackets.map Bracket.opener := List.mem_map_of_mem h
  have hc : b.closer ∈ table.brackets.map Bracket.closer := List.mem_map_of_mem h
  refine ⟨table.plain _ (List.mem_append_left _ ho), table.plain _ (List.mem_append_right _ hc), ?_⟩
  exact (List.nodup_append.mp table.nodup).2.2 _ ho _ hc

end BracketTable

/-! ### Steps in and out of code -/

namespace Context

variable {ctx : Context} {before after : Option Glyph} {here : Glyph}

/-- Inside one literal or comment at most. -/
structure Sole (ctx : Context) : Prop where
  string_of_verbatim : ctx.verbatim = true → ctx.string = true
  not_char : ctx.string = true → ctx.char = false
  not_comment : ctx.inLiteral = true → ctx.inComment = false
  not_block : ctx.lineComment = true → ctx.blockComment = false

theorem Sole.step (h : ctx.Sole) : (ctx.step before here after).next.Sole := by
  obtain ⟨h1, h2, h3, h4⟩ := h
  constructor <;> unfold Context.step stepSlash stepQuote brokenLine <;>
    grind [Step.one, Step.two, isCode, inLiteral, inComment]

theorem Sole.eq_code (h : ctx.Sole) (hc : ctx.isCode = true) : ctx = code := by
  obtain ⟨h1, -, -, -⟩ := h
  obtain ⟨string, char, verbatim, lineComment, blockComment⟩ := ctx
  simp_all [isCode, inLiteral, inComment, code]

/-- Inside a verbatim string. -/
def verbatimString : Context := { string := true, verbatim := true }

theorem Sole.eq_verbatimString (h : ctx.Sole) (hv : ctx.verbatim = true) :
    ctx = verbatimString := by
  obtain ⟨h1, h2, h3, -⟩ := h
  obtain ⟨string, char, verbatim, lineComment, blockComment⟩ := ctx
  simp_all [inLiteral, inComment, verbatimString]

/-- Inside a block comment. -/
def comment : Context := { blockComment := true }

theorem Sole.eq_comment (h : ctx.Sole) (hb : ctx.blockComment = true) : ctx = comment := by
  obtain ⟨h1, h2, h3, h4⟩ := h
  obtain ⟨string, char, verbatim, lineComment, blockComment⟩ := ctx
  simp_all [inLiteral, inComment, comment]

theorem step_code_of_not_startsMark (h : here.startsMark after = false) :
    code.step before here after = .one code := by
  unfold Glyph.startsMark at h
  unfold step stepSlash
  split at h <;> grind [code, brokenLine, escapes, Step.one]

theorem step_of_isLineBreak (h : here.isLineBreak = true) :
    ctx.step before here after = .one ctx.brokenLine := by
  unfold Glyph.isLineBreak at h
  split at h
  · rfl
  · rfl
  · exact nomatch h

/-- Only marks and line breaks lead into code. -/
theorem isCode_of_isCode_step (hm : here.startsMark after = false)
    (hb : here.isLineBreak = false) (h : (ctx.step before here after).next.isCode = true) :
    ctx.isCode = true := by
  revert h
  unfold Glyph.startsMark at hm
  unfold Glyph.isLineBreak at hb
  unfold step stepSlash
  grind [Step.one, Step.two]

/-- A step over a character without a meaning ends in a literal. -/
theorem isCode_step_of_consumed_two (h : (ctx.step before here (some .plain)).consumed = 2) :
    (ctx.step before here (some .plain)).next.isCode = false := by
  revert h
  unfold step stepSlash stepQuote
  grind [Step.one, Step.two, isCode, inLiteral, escapes]

end Context

theorem Site.ofContext_eq_code_iff {ctx : Context} :
    Site.ofContext ctx = .code ↔ ctx.isCode = true := by
  unfold Site.ofContext Context.isCode Context.inComment
  grind

namespace Text

variable {t : Text} {ctx ctx' : Context} {i j k lo hi start : Nat} {c : Char} {s : Step}

theorem lt_size_of_getElem? (h : t[i]? = some c) : i < t.size :=
  (Array.getElem?_eq_some_iff.mp h).1

theorem glyph?_of_getElem? (h : t[i]? = some c) : t.glyph? i = some (Glyph.ofChar c) := by
  rw [glyph?, h, Option.map_some]

theorem lt_size_of_glyph? {g : Glyph} (h : t.glyph? i = some g) : i < t.size := by
  obtain ⟨c, hc, -⟩ := Option.map_eq_some_iff.mp h
  exact lt_size_of_getElem? hc

theorem step_of_getElem? (h : t[i]? = some c) :
    t.step ctx i = .ok (ctx.step (t.glyphBefore? i) (Glyph.ofChar c) (t.glyph? (i + 1))) := by
  obtain ⟨hlt, rfl⟩ := Array.getElem?_eq_some_iff.mp h
  exact step_of_lt hlt

theorem exists_getElem?_of_step (h : t.step ctx i = .ok s) :
    ∃ c, t[i]? = some c ∧
      ctx.step (t.glyphBefore? i) (Glyph.ofChar c) (t.glyph? (i + 1)) = s := by
  obtain ⟨hlt, hs⟩ := step_eq_ok_iff.mp h
  exact ⟨t[i], Array.getElem?_eq_getElem hlt, hs⟩

theorem step_of_plain (h : t[i]? = some c) (hc : Glyph.ofChar c = .plain) :
    t.step ctx i = .ok (.one ctx) := by
  rw [step_of_getElem? h, hc, Context.step_plain]

theorem ne_lineFeed_of_plain (h : t[i]? = some c) (hc : Glyph.ofChar c = .plain) :
    t[i]? ≠ some '\n' := by
  intro hfeed
  rw [Option.some.inj (h.symm.trans hfeed)] at hc
  exact nomatch hc

theorem lineStart_succ_of_plain (h : t[i]? = some c) (hc : Glyph.ofChar c = .plain) :
    t.lineStart (i + 1) = t.lineStart i :=
  lineStart_succ_of_ne h fun hfeed => ne_lineFeed_of_plain h hc (hfeed ▸ h)

theorem closesBlockAt_of_plain (h : t[i]? = some c) (hc : Glyph.ofChar c = .plain) :
    t.closesBlockAt i = false := by
  simp [closesBlockAt, glyph?_of_getElem? h, hc]

theorem consumed_le_two (h : t.step ctx i = .ok s) : s.consumed ≤ 2 := by
  obtain ⟨c, -, rfl⟩ := exists_getElem?_of_step h
  exact Context.consumed_step_le ..

theorem marksAt_of_getElem? (h : t[i]? = some c) :
    t.marksAt i = .ok ((Glyph.ofChar c).startsMark (t.glyph? (i + 1))) := by
  rw [marksAt, read_eq_ok_iff.mpr h]
  rfl

theorem marksAt_of_glyph? {g : Glyph} (h : t.glyph? i = some g)
    (hm : g.startsMark (t.glyph? (i + 1)) = false) : t.marksAt i = .ok false := by
  obtain ⟨c, hc, rfl⟩ := Option.map_eq_some_iff.mp h
  rw [marksAt_of_getElem? hc, hm]

/-- No quote and no comment marker starts at the offsets `lo`, …, `hi - 1`,
which all lie inside the text. -/
def Unmarked (t : Text) (lo hi : Nat) : Prop :=
  ∀ i, lo ≤ i → i < hi → t.marksAt i = .ok false

theorem Unmarked.mono {lo' hi' : Nat} (h : t.Unmarked lo hi) (hlo : lo ≤ lo') (hhi : hi' ≤ hi) :
    t.Unmarked lo' hi' :=
  fun i h1 h2 => h i (hlo.trans h1) (h2.trans_le hhi)

theorem exists_of_marksAt_eq_false (h : t.marksAt i = .ok false) :
    ∃ c, t[i]? = some c ∧ (Glyph.ofChar c).startsMark (t.glyph? (i + 1)) = false := by
  rcases hc : t[i]? with _ | c
  · have hle : t.size ≤ i := Array.getElem?_eq_none_iff.mp hc
    rw [marksAt, read_eq_error_iff.mpr ⟨hle, rfl⟩] at h
    exact nomatch h
  · rw [marksAt_of_getElem? hc] at h
    exact ⟨c, rfl, Except.ok.inj h⟩

theorem step_code_of_marksAt (h : t.marksAt i = .ok false) :
    t.step .code i = .ok (.one .code) := by
  obtain ⟨c, hc, hm⟩ := exists_of_marksAt_eq_false h
  rw [step_of_getElem? hc, Context.step_code_of_not_startsMark hm]

theorem Unmarked.cons (hi : t.marksAt i = .ok false) (h : t.Unmarked (i + 1) j) :
    t.Unmarked i j := by
  intro m him hmj
  rcases him.eq_or_lt with rfl | hlt
  · exact hi
  · exact h m hlt hmj

/-- The offset holds a line feed or a carriage return. -/
def BreaksLine (t : Text) (i : Nat) : Prop :=
  ∃ c, t[i]? = some c ∧ (Glyph.ofChar c).isLineBreak = true

instance decidableBreaksLine (t : Text) (i : Nat) : Decidable (t.BreaksLine i) :=
  decidable_of_iff (t[i]?.any (fun c => (Glyph.ofChar c).isLineBreak) = true)
    (Option.any_eq_true ..)

theorem breaksLine_iff (h : t[i]? = some c) :
    t.BreaksLine i ↔ (Glyph.ofChar c).isLineBreak = true := by
  rw [BreaksLine, h]
  constructor
  · rintro ⟨d, hd, hb⟩
    rwa [Option.some.inj hd]
  · intro hb
    exact ⟨c, rfl, hb⟩

namespace Reaches

/-- Without marks a run stays in code, and visits every offset. -/
theorem code_of_unmarked (hm : t.Unmarked i j) (hij : i ≤ j) : t.Reaches i .code j .code := by
  induction hij with
  | refl => exact .here
  | @step m him ih =>
    have hr := ih (hm.mono (le_refl i) (Nat.le_succ m))
    exact hr.step (step_code_of_marksAt (hm m him (Nat.lt_succ_self m)))

/-- Without marks a run does not enter code, unless a line break leads it there. -/
theorem isCode_of_unmarked (h : t.Reaches i ctx j ctx') (hm : t.Unmarked i j)
    (hb : ∀ m c, m < j → t.Reaches i ctx m c → t.BreaksLine m →
      c.brokenLine.isCode = true → c.isCode = true)
    (hc : ctx'.isCode = true) : ctx.isCode = true := by
  induction h with
  | here => exact hc
  | @step m ctx' s hr hs ih =>
    have hlt : m < m + s.consumed := Nat.lt_add_of_pos_right s.consumed_pos
    refine ih (hm.mono (le_refl i) hlt.le) (fun n c hn => hb n c (hn.trans hlt)) ?_
    obtain ⟨c, hcm, hmark⟩ := exists_of_marksAt_eq_false (hm m hr.le hlt)
    obtain ⟨c', hcm', rfl⟩ := exists_getElem?_of_step hs
    obtain rfl : c = c' := Option.some.inj (hcm.symm.trans hcm')
    rcases hbreak : (Glyph.ofChar c).isLineBreak with _ | _
    · exact Context.isCode_of_isCode_step hmark hbreak hc
    · rw [Context.step_of_isLineBreak hbreak] at hc
      exact hb m ctx' hlt hr ⟨c, hcm, hbreak⟩ hc

/-- A run that comes past `q` has a last visit at or before it. -/
theorem exists_step_over {q : Nat} (h : t.Reaches i ctx j ctx') (hiq : i ≤ q) (hqj : q < j) :
    ∃ p c s, t.Reaches i ctx p c ∧ t.step c p = .ok s ∧ p ≤ q ∧ q < p + s.consumed ∧
      t.Reaches (p + s.consumed) s.next j ctx' := by
  induction h with
  | here => omega
  | @step m ctx' s hr hs ih =>
    by_cases hqm : q < m
    · obtain ⟨p, c, s', h1, h2, h3, h4, h5⟩ := ih hqm
      exact ⟨p, c, s', h1, h2, h3, h4, h5.step hs⟩
    · exact ⟨m, ctx', s, hr, hs, by omega, hqj, .here⟩

/-- A run comes to nothing between the two ends of a step. -/
theorem le_or_le_of_step {m : Nat} {c c' : Context} (h : t.Reaches i ctx j c)
    (hs : t.step c j = .ok s) (hm : t.Reaches i ctx m c') : m ≤ j ∨ j + s.consumed ≤ m := by
  rcases h.linear hm with hr | hr
  · obtain ⟨rfl, -⟩ | ⟨s', hs', hr'⟩ := hr.eq_or_head
    · exact .inl (le_refl m)
    · obtain rfl : s = s' := Except.ok.inj (hs.symm.trans hs')
      exact .inr hr'.le
  · exact .inl hr.le

/-- A run steps over no line start. -/
theorem exists_over_lineStart {q : Nat} (h : t.Reaches i ctx j ctx') (hq : t.IsLineStart q)
    (hiq : i ≤ q) (hqj : q ≤ j) : ∃ c, t.Reaches i ctx q c ∧ t.Reaches q c j ctx' := by
  rcases hqj.eq_or_lt with rfl | hlt
  · exact ⟨ctx', h, .here⟩
  · obtain ⟨p, c, s, h1, hs, hpq, hqp, h2⟩ := h.exists_step_over hiq hlt
    rcases hpq.eq_or_lt with rfl | hpq
    · exact ⟨c, h1, (Reaches.here.step hs).trans h2⟩
    · -- Only a step of two could pass `q`, and at a line feed there is none.
      obtain rfl | ⟨m, rfl, hm⟩ := hq
      · omega
      · have := consumed_le_two hs
        obtain rfl : p = m := by omega
        rw [step_of_getElem? hm] at hs
        obtain rfl := Except.ok.inj hs
        have hone : (Context.step c (t.glyphBefore? p) (Glyph.ofChar '\n')
            (t.glyph? (p + 1))).consumed = 1 := rfl
        omega

/-- A run that starts as code is never inside two things at once. -/
theorem sole (h : t.Reaches i .code j ctx) : ctx.Sole := by
  induction h with
  | here => constructor <;> decide
  | step _ hs ih =>
    obtain ⟨c, -, rfl⟩ := exists_getElem?_of_step hs
    exact ih.step

end Reaches

/-! ### Visits in plain code -/

/-- The run that starts as code at `start` visits `offset` in plain code. -/
def VisitsCode (t : Text) (start offset : Nat) : Prop :=
  ∃ ctx, t.Visits start offset ctx ∧ ctx.isCode = true

theorem visitsCode_iff : t.VisitsCode start i ↔ t.Visits start i .code := by
  constructor
  · rintro ⟨ctx, h, hc⟩
    exact h.sole.eq_code hc ▸ h
  · exact fun h => ⟨.code, h, rfl⟩

theorem visitsCode_self (t : Text) (start : Nat) : t.VisitsCode start start :=
  ⟨.code, .here, rfl⟩

theorem VisitsCode.le (h : t.VisitsCode start i) : start ≤ i := by
  obtain ⟨ctx, hv, -⟩ := h
  exact Reaches.le hv

theorem not_visitsCode (h : t.Visits start i ctx) (hc : ctx.isCode = false) :
    ¬ t.VisitsCode start i := by
  rintro ⟨ctx', h', hc'⟩
  rw [h.context_unique h', hc'] at hc
  exact nomatch hc

/-- A run that is code at `i` is there the run that starts as code at `i`. -/
theorem VisitsCode.visitsCode_iff_of_le (h : t.VisitsCode start i) (hij : i ≤ j) :
    t.VisitsCode start j ↔ t.VisitsCode i j := by
  have hi := visitsCode_iff.mp h
  constructor
  · rintro ⟨ctx, hj, hc⟩
    rcases hi.linear hj with hr | hr
    · exact ⟨ctx, hr, hc⟩
    · obtain rfl : i = j := Nat.le_antisymm hij hr.le
      exact t.visitsCode_self i
  · rintro ⟨ctx, hj, hc⟩
    exact ⟨ctx, hi.trans hj, hc⟩

/-- A run visits nothing between the two ends of a step. -/
theorem not_visits_of_step (h : t.Visits start i ctx) (hs : t.step ctx i = .ok s) (hij : i < j)
    (hj : j < i + s.consumed) : ¬ t.VisitsCode start j := by
  rintro ⟨c, hv, -⟩
  have := Reaches.le_or_le_of_step h hs hv
  omega

/-- The context in which the run from `ctx` at `i` visits `target`, if it does. -/
def contextAt (t : Text) (target : Nat) (ctx : Context) (i : Nat) : Option Context :=
  if i < target then
    if h : i < t.size then
      let s := t.stepAt ctx i h
      t.contextAt target s.next (i + s.consumed)
    else none
  else if i = target then some ctx else none
  termination_by target - i
  decreasing_by
    have := (t.stepAt ctx i h).consumed_pos
    omega

theorem contextAt_eq_some_iff :
    t.contextAt k ctx i = some ctx' ↔ t.Reaches i ctx k ctx' := by
  fun_induction t.contextAt k ctx i with
  | case1 ctx i hik h s ih =>
    rw [ih]
    have hs : t.step ctx i = .ok s := step_of_lt h
    constructor
    · exact fun hr => (Reaches.here.step hs).trans hr
    · intro hr
      obtain ⟨rfl, -⟩ | ⟨s', hs', hr'⟩ := hr.eq_or_head
      · omega
      · obtain rfl : s = s' := Except.ok.inj (hs.symm.trans hs')
        exact hr'
  | case2 ctx i hik h =>
    -- No step begins past the end of the text.
    refine ⟨(nomatch ·), fun hr => ?_⟩
    obtain ⟨rfl, -⟩ | ⟨s', hs', -⟩ := hr.eq_or_head
    · omega
    · exact absurd (step_eq_ok_iff.mp hs').1 h
  | case3 ctx hik =>
    rw [Option.some_inj]
    refine ⟨fun h => h ▸ .here, fun hr => ?_⟩
    exact Reaches.context_unique .here hr
  | case4 ctx i hik hne =>
    refine ⟨(nomatch ·), fun hr => ?_⟩
    have := hr.le
    omega

instance decidableVisitsCode (t : Text) (start i : Nat) : Decidable (t.VisitsCode start i) :=
  decidable_of_iff (t.contextAt i .code start = some .code)
    (contextAt_eq_some_iff.trans visitsCode_iff.symm)

/-- The run from `start` visits no end of a block comment in plain code at the
offsets `lo`, …, `hi - 1`. -/
def NoStrayEnd (t : Text) (start lo hi : Nat) : Prop :=
  ∀ i, lo ≤ i → i < hi → t.VisitsCode start i → t.closesBlockAt i = false

instance decidableNoStrayEnd (t : Text) (start lo hi : Nat) :
    Decidable (t.NoStrayEnd start lo hi) :=
  decidable_of_iff
    (∀ i, i < hi → lo ≤ i → t.VisitsCode start i → t.closesBlockAt i = false)
    ⟨fun h i h1 h2 => h i h2 h1, fun h i h1 h2 => h i h2 h1⟩

theorem NoStrayEnd.succ_of_plain (h : t.NoStrayEnd start lo i) (hget : t[i]? = some c)
    (hc : Glyph.ofChar c = .plain) : t.NoStrayEnd start lo (i + 1) := by
  intro m h1 h2 hm
  rcases Nat.lt_succ_iff_lt_or_eq.mp h2 with hmi | rfl
  · exact h m h1 hmi hm
  · exact closesBlockAt_of_plain hget hc

/-- From an offset where it is code on, a run meets the same stray ends as the run that
starts there. -/
theorem NoStrayEnd.of_visitsCode (h : t.NoStrayEnd start i hi) (hcode : t.VisitsCode start i) :
    t.NoStrayEnd i i hi :=
  fun m h1 h2 hm => h m h1 h2 ((hcode.visitsCode_iff_of_le h1).mpr hm)

/-! ### The place of an offset -/

/-- A reading is a run, as long as it meets no stray end of a block comment. -/
theorem siteFrom_of_reaches (h : t.Reaches i ctx j ctx')
    (hstray : ∀ m c, t.Reaches i ctx m c → m < j → c.isCode = true → t.closesBlockAt m = false) :
    t.siteFrom j ctx i = .ok (.ofContext ctx') := by
  induction hn : j - i using Nat.strong_induction_on generalizing i ctx with
  | _ n ih =>
  rw [siteFrom]
  obtain ⟨rfl, rfl⟩ | ⟨s, hs, hr⟩ := h.eq_or_head
  · rw [if_neg (Nat.lt_irrefl j)]
  · have hpos := s.consumed_pos
    have hlt : i < j := (Nat.lt_add_of_pos_right hpos).trans_le hr.le
    have hopen : (ctx.isCode && t.closesBlockAt i) = false := by
      rcases hc : ctx.isCode with _ | _
      · rfl
      · rw [hstray i ctx .here hlt hc, Bool.and_false]
    rw [if_pos hlt, hopen]
    simp only [bind, Except.bind, hs, Bool.false_eq_true, ↓reduceIte]
    exact ih (j - (i + s.consumed)) (by omega) hr
      (fun m c hm => hstray m c ((Reaches.here.step hs).trans hm)) rfl

/-- Seen from a start of the run, an offset that it visits is what the run is in. -/
theorem siteAt_of_visits (h : t.Visits start j ctx) (hstray : t.NoStrayEnd start start j) :
    t.siteAt start j = .ok (.ofContext ctx) :=
  siteFrom_of_reaches h fun m c hm hmj hc => hstray m hm.le hmj ⟨c, hm, hc⟩

theorem siteAt_of_visitsCode (h : t.VisitsCode start j) (hstray : t.NoStrayEnd start start j) :
    t.siteAt start j = .ok .code :=
  siteAt_of_visits (visitsCode_iff.mp h) hstray

/-- A reading that says of a character without a meaning that it is code has come to
it in code, and met no stray end of a block comment. -/
theorem reaches_of_siteFrom (hg : t.glyph? j = some .plain) (hij : i ≤ j)
    (h : t.siteFrom j ctx i = .ok .code) :
    ∃ ctx', t.Reaches i ctx j ctx' ∧ ctx'.isCode = true ∧
      ∀ m c, t.Reaches i ctx m c → m < j → c.isCode = true → t.closesBlockAt m = false := by
  induction hn : j - i using Nat.strong_induction_on generalizing i ctx with
  | _ n ih =>
  rw [siteFrom] at h
  rcases hij.eq_or_lt with rfl | hlt
  · rw [if_neg (Nat.lt_irrefl i)] at h
    refine ⟨ctx, .here, Site.ofContext_eq_code_iff.mp (Except.ok.inj h), fun m c hm hmi => ?_⟩
    exact absurd hm.le (Nat.not_le.mpr hmi)
  · rw [if_pos hlt] at h
    rcases hopen : ctx.isCode && t.closesBlockAt i with _ | _
    · obtain ⟨s, hs⟩ : ∃ s, t.step ctx i = .ok s :=
        ⟨_, step_of_lt (hlt.trans (lt_size_of_glyph? hg))⟩
      have hpos := s.consumed_pos
      have hle := consumed_le_two hs
      rw [hopen] at h
      simp only [bind, Except.bind, hs, Bool.false_eq_true, ↓reduceIte] at h
      by_cases hpast : i + s.consumed ≤ j
      · obtain ⟨ctx', hr, hcode, hstray⟩ := ih _ (by omega) hpast h rfl
        refine ⟨ctx', (Reaches.here.step hs).trans hr, hcode, fun m c hm hmj hc => ?_⟩
        obtain ⟨rfl, rfl⟩ | ⟨s', hs', hr'⟩ := hm.eq_or_head
        · rwa [hc, Bool.true_and] at hopen
        · obtain rfl : s = s' := Except.ok.inj (hs.symm.trans hs')
          exact hstray m c hr' hmj hc
      · -- A step of two over the offset is an escape, and those end in literals.
        obtain rfl : j = i + 1 := by omega
        rw [siteFrom, if_neg (by omega)] at h
        have hcode := Site.ofContext_eq_code_iff.mp (Except.ok.inj h)
        obtain ⟨c, -, rfl⟩ := exists_getElem?_of_step hs
        rw [hg] at hcode hpast hle
        rw [Context.isCode_step_of_consumed_two (by omega)] at hcode
        exact nomatch hcode
    · rw [hopen] at h
      exact nomatch h

/-- A character without a meaning is code, seen from an earlier offset, exactly if the
run from there visits it in plain code and meets no stray end of a block comment. -/
theorem siteAt_eq_code_iff (hg : t.glyph? j = some .plain) (hj : start ≤ j) :
    t.siteAt start j = .ok .code ↔ t.VisitsCode start j ∧ t.NoStrayEnd start start j := by
  refine ⟨fun h => ?_, fun ⟨hcode, hstray⟩ => siteAt_of_visitsCode hcode hstray⟩
  obtain ⟨ctx, hr, hcode, hstray⟩ := reaches_of_siteFrom hg hj h
  exact ⟨⟨ctx, hr, hcode⟩, fun m _ hmj ⟨c, hm, hc⟩ => hstray m c hm hmj hc⟩

/-! ### Brackets in plain code -/

/-- The brackets of `b` in the text, whatever they stand in. -/
def sides (t : Text) (b : Bracket) : Sides :=
  fun i => t[i]?.bind b.side?

/-- The brackets of `b` that the run from `start` visits in plain code. -/
def codeSides (t : Text) (b : Bracket) (start : Nat) : Sides :=
  fun i => if t.VisitsCode start i then t.sides b i else none

/-- How often the run from the beginning visits `c` in plain code strictly
between two offsets. -/
def codeCount (t : Text) (c : Char) (lo hi : Nat) : Nat :=
  (List.range' (lo + 1) (hi - (lo + 1))).countP fun i => t.VisitsCode 0 i ∧ t[i]? = some c

/-- The run from the beginning visits an opener of `b` at `o` and a closer at `k`
in plain code, and equally many of both in between. -/
structure CodePairs (t : Text) (b : Bracket) (o k : Nat) : Prop where
  lt : o < k
  opener : t[o]? = some b.opener
  closer : t[k]? = some b.closer
  opener_code : t.VisitsCode 0 o
  closer_code : t.VisitsCode 0 k
  count_eq : t.codeCount b.opener o k = t.codeCount b.closer o k

instance decidableCodePairs (t : Text) (b : Bracket) (o k : Nat) :
    Decidable (t.CodePairs b o k) :=
  decidable_of_iff
    (o < k ∧ t[o]? = some b.opener ∧ t[k]? = some b.closer ∧ t.VisitsCode 0 o ∧
      t.VisitsCode 0 k ∧ t.codeCount b.opener o k = t.codeCount b.closer o k)
    ⟨fun ⟨h1, h2, h3, h4, h5, h6⟩ => ⟨h1, h2, h3, h4, h5, h6⟩,
      fun ⟨h1, h2, h3, h4, h5, h6⟩ => ⟨h1, h2, h3, h4, h5, h6⟩⟩

variable {b : Bracket}

theorem sides_eq_forward : t.sides b i = some .forward ↔ t[i]? = some b.opener := by
  rw [sides, Option.bind_eq_some_iff]
  simp [Bracket.side?_eq_forward]

theorem sides_eq_backward (hb : b.Usable) :
    t.sides b i = some .backward ↔ t[i]? = some b.closer := by
  rw [sides, Option.bind_eq_some_iff]
  simp [Bracket.side?_eq_backward hb.opener_ne_closer]

/-- A bracket character is no mark. -/
theorem marksAt_of_has (hb : b.Usable) (h : t[i]? = some c) (hc : b.has c = true) :
    t.marksAt i = .ok false := by
  rw [marksAt_of_getElem? h, hb.plain_of_has hc]
  rfl

theorem codeSides_eq_some {d : Direction} :
    t.codeSides b start i = some d ↔ t.VisitsCode start i ∧ t.sides b i = some d := by
  rw [codeSides]
  split <;> simp_all

theorem codeSides_of_visitsCode (h : t.VisitsCode start i) :
    t.codeSides b start i = t.sides b i :=
  if_pos h

theorem codeSides_of_not_visitsCode (h : ¬ t.VisitsCode start i) :
    t.codeSides b start i = none :=
  if_neg h

/-- A character that is no bracket, or is not visited in plain code, does not count. -/
theorem codeSides_of_not_counted (h : t.Visits start i ctx) (hget : t[i]? = some c)
    (hc : (b.has c && ctx.isCode) = false) : t.codeSides b start i = none := by
  rcases Bool.and_eq_false_iff.mp hc with hhas | hcode
  · rw [codeSides, sides, hget, Option.bind_some, Bracket.side?_eq_none.mpr hhas, ite_self]
  · exact codeSides_of_not_visitsCode (not_visitsCode h hcode)

/-- Behind the end of the text there are no brackets. -/
theorem sides_of_size_le (h : t.size ≤ i) : t.sides b i = none := by
  rw [sides, Array.getElem?_eq_none h]
  rfl

theorem sides_of_getElem? (h : t[i]? = some c) : t.sides b i = b.side? c := by
  rw [sides, h]
  rfl

/-- Within a step that counts no bracket there is none. -/
theorem codeSides_of_step (h : t.Visits start i ctx) (hs : t.step ctx i = .ok s)
    (hi : t.codeSides b start i = none) (hij : i ≤ j) (hj : j < i + s.consumed) :
    t.codeSides b start j = none := by
  rcases hij.eq_or_lt with rfl | hlt
  · exact hi
  · exact codeSides_of_not_visitsCode (not_visits_of_step h hs hlt hj)

theorem codeSides_eq_sides_of_unmarked (h : t.VisitsCode start i) (hm : t.Unmarked i j)
    (hij : i ≤ j) : t.codeSides b start j = t.sides b j :=
  codeSides_of_visitsCode
    ⟨.code, (visitsCode_iff.mp h).trans (Reaches.code_of_unmarked hm hij), rfl⟩

theorem VisitsCode.codeSides_eq (h : t.VisitsCode start i) (hij : i ≤ j) :
    t.codeSides b start j = t.codeSides b i j := by
  simp only [codeSides, h.visitsCode_iff_of_le hij]

theorem codeCount_opener :
    t.codeCount b.opener i j = (t.codeSides b 0).count .forward (i + 1) j := by
  simp only [codeCount, Sides.count, codeSides_eq_some, sides_eq_forward]

theorem codeCount_closer (hb : b.Usable) :
    t.codeCount b.closer i j = (t.codeSides b 0).count .backward (i + 1) j := by
  simp only [codeCount, Sides.count, codeSides_eq_some, sides_eq_backward hb]

theorem codePairs_iff (hb : b.Usable) {o k : Nat} :
    t.CodePairs b o k ↔ (t.codeSides b 0).Pairs o k := by
  have hh := fun h : o < k => (t.codeSides b 0).height_eq_add_count (show o + 1 ≤ k from h)
  constructor
  · rintro ⟨hlt, ho, hk, hoc, hkc, hcount⟩
    refine ⟨hlt, codeSides_eq_some.mpr ⟨hoc, sides_eq_forward.mpr ho⟩,
      codeSides_eq_some.mpr ⟨hkc, (sides_eq_backward hb).mpr hk⟩, ?_⟩
    rw [codeCount_opener, codeCount_closer hb] at hcount
    have := hh hlt
    omega
  · rintro ⟨hlt, ho, hk, hheight⟩
    obtain ⟨hoc, ho⟩ := codeSides_eq_some.mp ho
    obtain ⟨hkc, hk⟩ := codeSides_eq_some.mp hk
    refine ⟨hlt, sides_eq_forward.mp ho, (sides_eq_backward hb).mp hk, hoc, hkc, ?_⟩
    rw [codeCount_opener, codeCount_closer hb]
    have := hh hlt
    omega

end Text

end BracketMatching
