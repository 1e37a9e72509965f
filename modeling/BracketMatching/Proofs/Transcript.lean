/-
Transcripts: texts that say the same, in other characters and at other places.

Readings look at a character only for what it means: to the lexing rules, and to the
bracket that is sought.  So a text can be written anew, each character at a place of its
own, without a change in what is read.  A line feed may even become two characters, a
carriage return and a line feed, since both break a line and only the latter starts one.

* `Text.Alike` — a character of one text means what a character of the other one does;
* `Text.Transcript` — every character up to some offset is written in the other text, in
  order, from its place `pos i` on;
* `Text.KeepsEscapes` — the one thing that two characters for a line feed can break: an
  escape consumes the carriage return, and the line feed is read behind it;
* `Text.Transcript.lineStart_pos`, `Text.Transcript.lineStartAbove_pos`,
  `Text.Transcript.step_pos`, `Text.Transcript.siteAt_pos` — what is read of lines, in one
  step, and on the way to an offset is at the places of what is read in the original.

Design note: a transcript covers the text up to an offset, since most readings end before
the text does; two texts that agree so far are transcripts of one another, in place.
-/
import BracketMatching.Proofs.Safety

namespace BracketMatching

/-! ### Steps between other neighbours -/

/-- The next glyph may be a carriage return for a line feed: no mark ends with either. -/
def Glyph.FollowsLike (after after' : Option Glyph) : Prop :=
  after' = after ∨ after = some .lineFeed ∧ after' = some .carriageReturn

theorem Glyph.startsMark_congr {here : Glyph} {after after' : Option Glyph}
    (h : FollowsLike after after') : here.startsMark after' = here.startsMark after := by
  rcases h with rfl | ⟨rfl, rfl⟩
  · rfl
  · unfold startsMark
    split <;> simp_all

theorem Glyph.ofChar_eq_lineFeed_iff {c : Char} : ofChar c = .lineFeed ↔ c = '\n' := by
  unfold ofChar
  split <;> simp_all

theorem Glyph.ofChar_eq_backslash_iff {c : Char} : ofChar c = .backslash ↔ c = '\\' := by
  unfold ofChar
  split <;> simp_all

namespace Context

variable {ctx : Context} {before before' after after' : Option Glyph} {here : Glyph}

theorem step_congr (hbefore : before' = some .atSign ↔ before = some .atSign)
    (hafter : Glyph.FollowsLike after after') :
    ctx.step before' here after' = ctx.step before here after := by
  rcases hafter with rfl | ⟨rfl, rfl⟩ <;> cases here <;>
    simp [step, stepSlash, stepQuote, hbefore]

@[simp] theorem brokenLine_brokenLine : ctx.brokenLine.brokenLine = ctx.brokenLine := by
  simp [brokenLine]

@[simp] theorem cutByLineBreak_brokenLine : ctx.brokenLine.cutByLineBreak = false := by
  simp [brokenLine, cutByLineBreak]

/-- Of all steps only an escape consumes a line feed together with what is before it. -/
theorem escapes_of_consumed_two (h : (ctx.step before here (some .lineFeed)).consumed = 2) :
    here = .backslash ∧ ctx.escapes = true := by
  revert h
  unfold step stepSlash stepQuote
  grind [Step.one, Step.two]

end Context

namespace Text

variable {b : Bracket} {t t' : Text} {pos : Nat → Nat} {last : Option Nat} {ctx : Context}
  {reads : Nat → Prop} {i j k n : Nat} {c : Char} {s : Step}

/-! ### Characters that mean the same -/

/-- What `t` has at `i` means to the lexing rules and to the bracket what `t'` has at `j`
does.  Both texts may also have ended there. -/
structure Alike (b : Bracket) (t : Text) (i : Nat) (t' : Text) (j : Nat) : Prop where
  glyph : t'.glyph? j = t.glyph? i
  side : t'.sides b j = t.sides b i

theorem glyph?_eq_lineFeed_iff : t.glyph? i = some .lineFeed ↔ t[i]? = some '\n' := by
  rw [glyph?, Option.map_eq_some_iff]
  simp [Glyph.ofChar_eq_lineFeed_iff]

theorem size_le_iff_glyph? : t.size ≤ i ↔ t.glyph? i = none := by
  rw [glyph?, Option.map_eq_none_iff, Array.getElem?_eq_none_iff]

namespace Alike

theorem of_getElem?_eq (h : t'[j]? = t[i]?) : t.Alike b i t' j := by
  constructor
  · rw [glyph?, glyph?, h]
  · rw [sides, sides, h]

variable (h : t.Alike b i t' j)
include h

theorem exists_getElem? (hc : t[i]? = some c) :
    ∃ c', t'[j]? = some c' ∧ Glyph.ofChar c' = Glyph.ofChar c ∧ b.has c' = b.has c := by
  obtain ⟨c', hc', hglyph⟩ := Option.map_eq_some_iff.mp (h.glyph.trans (glyph?_of_getElem? hc))
  refine ⟨c', hc', hglyph, ?_⟩
  have hside : b.side? c' = b.side? c := by
    rw [← sides_of_getElem? hc', ← sides_of_getElem? hc, h.side]
  rw [Bool.eq_iff_iff, ← Bool.not_eq_false, ← Bool.not_eq_false, ← Bracket.side?_eq_none,
    ← Bracket.side?_eq_none, hside]

theorem size_le (hsize : t.size ≤ i) : t'.size ≤ j := by
  rw [size_le_iff_glyph?] at hsize ⊢
  rw [h.glyph, hsize]

theorem opener_iff : t'[j]? = some b.opener ↔ t[i]? = some b.opener := by
  rw [← sides_eq_forward, ← sides_eq_forward, h.side]

theorem closer_iff (hb : b.Usable) : t'[j]? = some b.closer ↔ t[i]? = some b.closer := by
  rw [← sides_eq_backward hb, ← sides_eq_backward hb, h.side]

theorem lineFeed_iff : t'[j]? = some '\n' ↔ t[i]? = some '\n' := by
  rw [← glyph?_eq_lineFeed_iff, ← glyph?_eq_lineFeed_iff, h.glyph]

end Alike

theorem has_of_isLineBreak (hb : b.Usable) (hc : (Glyph.ofChar c).isLineBreak = true) :
    b.has c = false := by
  rw [Bool.eq_false_iff]
  intro hhas
  rw [hb.plain_of_has hhas] at hc
  cases hc

theorem marksAt_of_isLineBreak (h : t[i]? = some c) (hc : (Glyph.ofChar c).isLineBreak = true) :
    t.marksAt i = .ok false := by
  rw [marksAt_of_getElem? h]
  unfold Glyph.isLineBreak at hc
  split at hc <;> simp_all [Glyph.startsMark]

theorem step_of_isLineBreak (h : t[i]? = some c) (hc : (Glyph.ofChar c).isLineBreak = true) :
    t.step ctx i = .ok (.one ctx.brokenLine) := by
  rw [step_of_getElem? h, Context.step_of_isLineBreak hc]

theorem closesBlockAt_of_isLineBreak (h : t[i]? = some c)
    (hc : (Glyph.ofChar c).isLineBreak = true) : t.closesBlockAt i = false := by
  rw [closesBlockAt, decide_eq_false_iff_not, glyph?_of_getElem? h, Option.some_inj]
  rintro ⟨hstar, -⟩
  rw [hstar] at hc
  cases hc

theorem siteFrom_of_isLineBreak (hi : i < n) (h : t[i]? = some c)
    (hc : (Glyph.ofChar c).isLineBreak = true) :
    t.siteFrom n ctx i = t.siteFrom n ctx.brokenLine (i + 1) := by
  rw [siteFrom, if_pos hi, closesBlockAt_of_isLineBreak h hc, Bool.and_false,
    step_of_isLineBreak h hc]
  rfl

theorem lineStart_of_isLineStart (h : t.IsLineStart i) : t.lineStart i = i := by
  obtain rfl | ⟨j, rfl, hfeed⟩ := h
  · exact Nat.le_zero.mp (t.lineStart_le_self 0)
  · have hlt := lt_size_of_getElem? hfeed
    refine Nat.le_antisymm (t.lineStart_le_self _) (Nat.le_of_not_lt fun hle => ?_)
    exact ne_lineFeed_of_lineStart_le (Nat.le_of_lt_succ hle) (by omega) hfeed

/-! ### Transcripts -/

/-- `i` does not lie behind the last offset, if there is one. -/
def UpTo (last : Option Nat) (i : Nat) : Prop := ∀ k, last = some k → i ≤ k

theorem upTo_none (i : Nat) : UpTo none i :=
  nofun

theorem upTo_some : UpTo (some k) i ↔ i ≤ k :=
  ⟨fun h => h k rfl, fun h _ hk => Option.some.inj hk ▸ h⟩

theorem UpTo.mono (h : UpTo last j) (hij : i ≤ j) : UpTo last i :=
  fun k hk => hij.trans (h k hk)

/-- The character of `t` at `i` stands in `t'` at `pos i`, right before the next one. -/
inductive Writes (b : Bracket) (t t' : Text) (pos : Nat → Nat) (i : Nat) : Prop
  /-- It is one that means the same. -/
  | alike (halike : t.Alike b i t' (pos i)) (hnext : pos (i + 1) = pos i + 1)
  /-- It is a line feed, and has got a carriage return before it. -/
  | returned (hfeed : t[i]? = some '\n') (hreturn : t'[pos i]? = some '\r')
      (hfeed' : t'[pos i + 1]? = some '\n') (hnext : pos (i + 1) = pos i + 1 + 1)

/-- The characters of `t`, up to and including that at `last`, stand in `t'` at `pos`. -/
structure Transcript (b : Bracket) (t t' : Text) (pos : Nat → Nat) (last : Option Nat) :
    Prop where
  isLineStart : t'.IsLineStart (pos 0)
  strictMono : StrictMono pos
  writes : ∀ i, UpTo last i → Writes b t t' pos i

/-- No line feed is written with a carriage return if the run that is in `ctx` at `i`
escapes it in a step that is read. -/
def KeepsEscapes (t : Text) (pos : Nat → Nat) (reads : Nat → Prop) (i : Nat) (ctx : Context) :
    Prop :=
  ∀ j c, t.Reaches i ctx j c → reads j → c.escapes = true →
    t[j]? = some '\\' → t[j + 1]? = some '\n' → pos (j + 2) = pos (j + 1) + 1

/-- Where every character is written as one, there is nothing to tear. -/
theorem KeepsEscapes.of_unbroken (h : ∀ i, pos (i + 1) = pos i + 1) :
    KeepsEscapes t pos reads i ctx :=
  fun j _ _ _ _ _ _ => h (j + 1)

theorem KeepsEscapes.of_reaches {ctx' : Context} (h : KeepsEscapes t pos reads i ctx)
    (hr : t.Reaches i ctx j ctx') : KeepsEscapes t pos reads j ctx' :=
  fun m c hm => h m c (hr.trans hm)

theorem KeepsEscapes.step (h : KeepsEscapes t pos reads i ctx) (hs : t.step ctx i = .ok s) :
    KeepsEscapes t pos reads (i + s.consumed) s.next :=
  h.of_reaches (.step .here hs)

theorem KeepsEscapes.mono {reads' : Nat → Prop} (h : KeepsEscapes t pos reads i ctx)
    (hreads : ∀ j, reads' j → reads j) : KeepsEscapes t pos reads' i ctx :=
  fun j c hr hj => h j c hr (hreads j hj)

namespace Transcript

/-- Two texts that agree up to some offset. -/
theorem of_agree (h : ∀ i, UpTo last i → t'[i]? = t[i]?) : Transcript b t t' id last :=
  ⟨.inl rfl, strictMono_id, fun i hi => .alike (.of_getElem?_eq (h i hi)) rfl⟩

/-- What holds of whole texts holds of what is before an offset. -/
theorem mono (h : Transcript b t t' pos none) : Transcript b t t' pos last :=
  ⟨h.isLineStart, h.strictMono, fun i _ => h.writes i (upTo_none i)⟩

variable (h : Transcript b t t' pos last)
include h

theorem pos_le_iff : pos i ≤ pos j ↔ i ≤ j := h.strictMono.le_iff_le

theorem pos_lt_iff : pos i < pos j ↔ i < j := h.strictMono.lt_iff_lt

/-- A bracket is no line feed, and is written as one character. -/
theorem alike_of_has (hi : UpTo last i) (hb : b.Usable) (hc : t[i]? = some c)
    (hhas : b.has c = true) : t.Alike b i t' (pos i) ∧ pos (i + 1) = pos i + 1 := by
  cases h.writes i hi with
  | alike halike hnext => exact ⟨halike, hnext⟩
  | returned hfeed _ _ _ => exact absurd hfeed (ne_lineFeed_of_plain hc (hb.plain_of_has hhas))

/-- What stands before a character, if it is an at sign, stands before it in `t'`, too. -/
theorem glyphBefore?_pos (hi : UpTo last i) :
    t'.glyphBefore? (pos i) = some .atSign ↔ t.glyphBefore? i = some .atSign := by
  cases i with
  | zero =>
    refine iff_of_false (fun hat => ?_) nofun
    obtain hzero | ⟨j, hj, hfeed⟩ := h.isLineStart
    · rw [hzero] at hat
      cases hat
    · rw [hj, glyphBefore?, glyph?_of_getElem? hfeed] at hat
      cases hat
  | succ i =>
    cases h.writes i (hi.mono (Nat.le_succ i)) with
    | alike halike hnext => rw [hnext, glyphBefore?, glyphBefore?, halike.glyph]
    | returned hfeed _ hfeed' hnext =>
      rw [hnext, glyphBefore?, glyphBefore?, glyph?_of_getElem? hfeed, glyph?_of_getElem? hfeed']

/-- What stands behind a character is in `t'` what it is in `t`, or a line break, too. -/
theorem followsLike_pos (hi : UpTo last (i + 1)) (hnext : pos (i + 1) = pos i + 1) :
    Glyph.FollowsLike (t.glyph? (i + 1)) (t'.glyph? (pos i + 1)) := by
  rw [← hnext]
  cases h.writes (i + 1) hi with
  | alike halike _ => exact .inl halike.glyph
  | returned hfeed hreturn _ _ =>
    exact .inr ⟨glyph?_of_getElem? hfeed, glyph?_of_getElem? hreturn⟩

/-! ### Steps -/

theorem step_pos (hi : UpTo last (i + 1)) (halike : t.Alike b i t' (pos i))
    (hnext : pos (i + 1) = pos i + 1) (hs : t.step ctx i = .ok s) :
    t'.step ctx (pos i) = .ok s := by
  obtain ⟨c, hc, rfl⟩ := exists_getElem?_of_step hs
  obtain ⟨c', hc', hglyph, -⟩ := halike.exists_getElem? hc
  rw [step_of_getElem? hc', hglyph,
    Context.step_congr (h.glyphBefore?_pos (hi.mono (Nat.le_succ i))) (h.followsLike_pos hi hnext)]

/-- A step that escapes no line feed of two characters ends at the place of its end. -/
theorem pos_add_consumed (hi : UpTo last (i + 1)) (hread : reads i)
    (hkeep : KeepsEscapes t pos reads i ctx) (hnext : pos (i + 1) = pos i + 1)
    (hs : t.step ctx i = .ok s) : pos (i + s.consumed) = pos i + s.consumed := by
  have hpos := s.consumed_pos
  have hle := consumed_le_two hs
  obtain hone | htwo : s.consumed = 1 ∨ s.consumed = 2 := by omega
  · rw [hone, hnext]
  · rw [htwo]
    cases h.writes (i + 1) hi with
    | alike _ hnext' => rw [hnext', hnext]
    | returned hfeed _ _ _ =>
      obtain ⟨c, hc, rfl⟩ := exists_getElem?_of_step hs
      rw [glyph?_of_getElem? hfeed] at htwo
      obtain ⟨hback, hesc⟩ := Context.escapes_of_consumed_two htwo
      have hbackslash : t[i]? = some '\\' := Glyph.ofChar_eq_backslash_iff.mp hback ▸ hc
      rw [hkeep i ctx .here hread hesc hbackslash hfeed, hnext]

theorem marksAt_pos (hi : UpTo last (i + 1)) (halike : t.Alike b i t' (pos i))
    (hnext : pos (i + 1) = pos i + 1) {m : Bool} (hm : t.marksAt i = .ok m) :
    t'.marksAt (pos i) = .ok m := by
  obtain ⟨c, hc⟩ : ∃ c, t[i]? = some c := by
    rcases hc : t[i]? with _ | c
    · rw [marksAt, read_eq_error_iff.mpr ⟨Array.getElem?_eq_none_iff.mp hc, rfl⟩] at hm
      cases hm
    · exact ⟨c, rfl⟩
  obtain ⟨c', hc', hglyph, -⟩ := halike.exists_getElem? hc
  rw [marksAt_of_getElem? hc] at hm
  rw [marksAt_of_getElem? hc', hglyph, Glyph.startsMark_congr (h.followsLike_pos hi hnext), hm]

theorem closesBlockAt_pos (hi : UpTo last (i + 1)) (halike : t.Alike b i t' (pos i))
    (hnext : pos (i + 1) = pos i + 1) : t'.closesBlockAt (pos i) = t.closesBlockAt i := by
  rw [closesBlockAt, closesBlockAt, halike.glyph]
  rcases h.followsLike_pos hi hnext with heq | ⟨hfeed, hreturn⟩
  · rw [heq]
  · rw [hfeed, hreturn]
    simp

/-! ### Lines -/

theorem lineStart_pos (hi : UpTo last i) (hsize : i ≤ t.size) :
    t'.lineStart (pos i) = pos (t.lineStart i) := by
  induction i with
  | zero => rw [lineStart_of_isLineStart h.isLineStart, lineStart_of_isLineStart (.inl rfl)]
  | succ i ih =>
    have hget : t[i]? = some t[i] := Array.getElem?_eq_getElem hsize
    have hup : UpTo last i := hi.mono (Nat.le_succ i)
    cases h.writes i hup with
    | alike halike hnext =>
      obtain ⟨c', hc', -, -⟩ := halike.exists_getElem? hget
      by_cases hfeed : t[i]? = some '\n'
      · have hstart : t'.IsLineStart (pos (i + 1)) :=
          .inr ⟨pos i, hnext, halike.lineFeed_iff.mpr hfeed⟩
        rw [lineStart_of_isLineStart hstart, lineStart_of_isLineStart (.inr ⟨i, rfl, hfeed⟩)]
      · have hne : t[i] ≠ '\n' := fun heq => hfeed (heq ▸ hget)
        have hne' : c' ≠ '\n' := fun heq => hfeed (halike.lineFeed_iff.mp (heq ▸ hc'))
        rw [hnext, lineStart_succ_of_ne hc' hne', lineStart_succ_of_ne hget hne]
        exact ih hup (Nat.le_of_succ_le hsize)
    | returned hfeed _ hfeed' hnext =>
      have hstart : t'.IsLineStart (pos (i + 1)) := .inr ⟨pos i + 1, hnext, hfeed'⟩
      rw [lineStart_of_isLineStart hstart, lineStart_of_isLineStart (.inr ⟨i, rfl, hfeed⟩)]

/-- Just before the next character, the line is that of this one. -/
theorem lineStart_before_pos (hi : UpTo last i) (hsize : i ≤ t.size)
    (hnext : pos (i + 1) = n + 1) : t'.lineStart n = pos (t.lineStart i) := by
  rw [← h.lineStart_pos hi hsize]
  cases h.writes i hi with
  | alike _ hnext' =>
    obtain rfl : n = pos i := Nat.succ.inj (hnext.symm.trans hnext')
    rfl
  | returned _ hreturn _ hnext' =>
    obtain rfl : n = pos i + 1 := Nat.succ.inj (hnext.symm.trans hnext')
    exact lineStart_succ_of_ne hreturn (by decide)

/-- Walking up leads to the same lines, in a transcript that starts where `t'` does. -/
theorem lineStartAbove_pos (hzero : pos 0 = 0) (hi : UpTo last i) (hsize : i ≤ t.size)
    (lines : Nat) : t'.lineStartAbove (pos i) lines = pos (t.lineStartAbove i lines) := by
  induction lines generalizing i with
  | zero => simp
  | succ lines ih =>
    cases i with
    | zero => simp [hzero]
    | succ i =>
      have hlt : pos 0 < pos (i + 1) := h.pos_lt_iff.mpr (Nat.succ_pos i)
      obtain ⟨n, hn⟩ := Nat.exists_eq_succ_of_ne_zero (Nat.ne_zero_of_lt hlt)
      have hup : UpTo last i := hi.mono (Nat.le_succ i)
      have hline := t.lineStart_le i
      rw [hn, lineStartAbove, lineStartAbove,
        h.lineStart_before_pos hup (Nat.le_of_succ_le hsize) hn]
      exact ih (hup.mono (by omega)) (by omega)

/-! ### Sites -/

/-- A reading on the way to an offset says of its place what it says of the offset. -/
theorem siteFrom_pos (hn : UpTo last n) (hkeep : KeepsEscapes t pos (fun j => j + 1 < n) i ctx)
    {site : Site} (hsite : t.siteFrom n ctx i = .ok site) :
    t'.siteFrom (pos n) ctx (pos i) = .ok site := by
  induction hm : n - i using Nat.strong_induction_on generalizing i ctx with
  | _ m ih =>
  by_cases hlt : i < n
  · have hup : UpTo last (i + 1) := hn.mono hlt
    have hlt' : pos i < pos n := h.pos_lt_iff.mpr hlt
    cases h.writes i (hn.mono hlt.le) with
    | alike halike hnext =>
      rw [siteFrom, if_pos hlt] at hsite
      rw [siteFrom, if_pos hlt', h.closesBlockAt_pos hup halike hnext]
      rcases hstray : ctx.isCode && t.closesBlockAt i with _ | _
      · rw [hstray, if_neg Bool.false_ne_true] at hsite
        rcases hs : t.step ctx i with f | s
        · rw [hs] at hsite
          cases hsite
        · have hpos := s.consumed_pos
          rw [hs] at hsite
          rw [if_neg Bool.false_ne_true, h.step_pos hup halike hnext hs]
          simp only [bind, Except.bind] at hsite ⊢
          rcases (Nat.succ_le_of_lt hlt).lt_or_eq with hbefore | rfl
          · rw [← h.pos_add_consumed hup hbefore hkeep hnext hs]
            exact ih _ (by omega) (hkeep.step hs) hsite rfl
          · -- The last step may go past `n`, and how far does not matter.
            rw [siteFrom, if_neg (by omega)] at hsite
            rw [hnext, siteFrom, if_neg (by omega), hsite]
      · rwa [hstray] at hsite
    | returned hfeed hreturn hfeed' hnext =>
      have hlt'' : pos i + 1 < pos n := by
        have hle : pos (i + 1) ≤ pos n := h.pos_le_iff.mpr hlt
        omega
      have hs : t.step ctx i = .ok (.one ctx.brokenLine) := step_of_isLineBreak hfeed rfl
      rw [siteFrom_of_isLineBreak hlt hfeed rfl] at hsite
      rw [siteFrom_of_isLineBreak hlt' hreturn rfl, siteFrom_of_isLineBreak hlt'' hfeed' rfl,
        Context.brokenLine_brokenLine, ← hnext]
      exact ih _ (by omega) (hkeep.step hs) hsite rfl
  · rw [siteFrom, if_neg hlt] at hsite
    rw [siteFrom, if_neg fun hlt' => hlt (h.pos_lt_iff.mp hlt'), hsite]

/-- On its line, an offset is at the same kind of place: no line feed stands before it. -/
theorem siteAt_pos (hn : UpTo last n) (hsize : n ≤ t.size) {site : Site}
    (hsite : t.siteAt (t.lineStart n) n = .ok site) :
    t'.siteAt (t'.lineStart (pos n)) (pos n) = .ok site := by
  rw [h.lineStart_pos hn hsize]
  refine h.siteFrom_pos hn (fun j c hr hj _ _ hfeed => ?_) hsite
  exact absurd hfeed (ne_lineFeed_of_lineStart_le (Nat.le_succ_of_le hr.le) (by omega))

end Transcript

end Text

end BracketMatching
