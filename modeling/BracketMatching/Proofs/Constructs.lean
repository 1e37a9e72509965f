/-
Constructs: comments and literals, read as wholes.

A run moves by a character or two, and remembers what it is inside of.  What it does to a
comment or a literal as a whole can be said without following it: which construct begins at
an offset in code, and where that ends, is written in the text.

* `Text.opensAt` — the construct that begins at an offset;
* `Text.ClosesAt`, `Text.ClosedAt` — where a construct may end, and where it does: the
  escapes in a literal are told by the parity of the row of backslashes before a quote
  (`Text.runBefore`), and the doubled quotes in a verbatim string by the parity of the row
  of quotes;
* `Text.isLeast_visitsCode` — **a run that is code where a construct begins is code again
  right behind its end**, and nowhere between.

Design note: inside of a construct a run visits the offsets that are `AlignedAt` it, and no
others.  One step there either ends the construct or comes to the next such offset
(`Text.Advances`), which is shown for each construct on its own, and is all that the rest of
the proof knows of them.
-/
import BracketMatching.Proofs.FalseStarts
import Mathlib.Algebra.Ring.Parity
import Mathlib.Data.Nat.Find

namespace BracketMatching

/-- What code can be interrupted by. -/
inductive Construct
  | lineComment
  | blockComment
  /-- A string that is not verbatim. -/
  | string
  /-- A character literal. -/
  | character
  /-- A verbatim string. -/
  | verbatim
  deriving DecidableEq, Repr

namespace Construct

/-- What a run is inside of, inside of the construct. -/
def context : Construct → Context
  | .lineComment => { lineComment := true }
  | .blockComment => .comment
  | .string => { string := true }
  | .character => { char := true }
  | .verbatim => .verbatimString

/-- How many characters begin the construct. -/
def openerLength : Construct → Nat
  | .lineComment | .blockComment => 2
  | .string | .character | .verbatim => 1

/-- How many characters end it. -/
def closerLength : Construct → Nat
  | .blockComment => 2
  | .lineComment | .string | .character | .verbatim => 1

/-- The construct that a glyph begins in code, between its neighbours. -/
def opened (before : Option Glyph) (here : Glyph) (after : Option Glyph) : Option Construct :=
  match here, after with
  | .slash, some .slash => some .lineComment
  | .slash, some .star => some .blockComment
  | .quote, _ => if before = some .atSign then some .verbatim else some .string
  | .apostrophe, _ => some .character
  | _, _ => none

/-- The step into the construct. -/
def opening (con : Construct) : Step where
  next := con.context
  consumed := con.openerLength
  consumed_pos := by cases con <;> decide

theorem isCode_context (con : Construct) : con.context.isCode = false := by
  cases con <;> rfl

end Construct

/-! ### Steps into a construct, and inside -/

namespace Context

variable {before after : Option Glyph} {here : Glyph}

theorem step_code :
    code.step before here after =
      ((Construct.opened before here after).map Construct.opening).getD (.one code) := by
  cases here with
  | slash =>
    rcases after with _ | after
    · rfl
    · cases after <;> rfl
  | quote =>
    by_cases hat : before = some .atSign
    · subst hat
      rfl
    · rw [step_code_quote hat, Construct.opened, if_neg hat]
      rfl
  | _ => rfl

theorem step_lineComment :
    ({ lineComment := true } : Context).step before here after =
      if here.isLineBreak = true then .one .code else .one { lineComment := true } := by
  cases here <;> rfl

theorem step_comment :
    comment.step before here after =
      if here = .star ∧ after = some .slash then .two code else .one comment := by
  cases here <;> simp [step, comment, stepSlash, stepQuote, isCode, inLiteral, inComment,
    brokenLine, escapes, code]

theorem step_string :
    ({ string := true } : Context).step before here after =
      if here = .backslash then .two { string := true }
      else if here = .quote ∨ here.isLineBreak = true then .one .code
      else .one { string := true } := by
  cases here <;> rfl

theorem step_character :
    ({ char := true } : Context).step before here after =
      if here = .backslash then .two { char := true }
      else if here = .apostrophe ∨ here.isLineBreak = true then .one .code
      else .one { char := true } := by
  cases here <;> rfl

end Context

namespace Text

variable {t : Text} {con : Construct} {ctx : Context} {g delim : Glyph} {i j k m p start : Nat}
  {c : Char} {s : Step}

/-! ### Where constructs begin and end -/

/-- The construct that begins at `i`, if `i` is code. -/
def opensAt (t : Text) (i : Nat) : Option Construct :=
  (t.glyph? i).bind fun here => Construct.opened (t.glyphBefore? i) here (t.glyph? (i + 1))

/-- How many `g` stand in a row right before an offset, counted from behind `i` on. -/
def runBefore (t : Text) (g : Glyph) (i : Nat) : (offset : Nat) → Nat
  | 0 => 0
  | j + 1 => if i < j ∧ t.glyph? j = some g then t.runBefore g i j + 1 else 0

/-- At `j` stands the delimiter that ends a literal begun at `i`, or a line break that cuts it
off: neither is escaped. -/
def EndsLiteral (t : Text) (delim : Glyph) (i j : Nat) : Prop :=
  (t.glyph? j = some delim ∨ t.BreaksLine j) ∧ Even (t.runBefore .backslash i j)

/-- What ends the construct that begins at `i` stands at `j`.  In a verbatim string that is
the last one of a row of quotes, if their number is odd. -/
def ClosesAt (t : Text) (con : Construct) (i j : Nat) : Prop :=
  match con with
  | .lineComment => t.BreaksLine j
  | .blockComment => t.closesBlockAt j = true
  | .string => t.EndsLiteral .quote i j
  | .character => t.EndsLiteral .apostrophe i j
  | .verbatim => t.glyph? j = some .quote ∧ t.glyph? (j + 1) ≠ some .quote ∧
      Odd (t.runBefore .quote i (j + 1))

/-- The construct that begins at `i` ends with what stands at `j`, the first of its kind. -/
def ClosedAt (t : Text) (con : Construct) (i j : Nat) : Prop :=
  IsLeast {j | i + con.openerLength ≤ j ∧ t.ClosesAt con i j} j

instance decidableEndsLiteral (t : Text) (delim : Glyph) (i j : Nat) :
    Decidable (t.EndsLiteral delim i j) :=
  inferInstanceAs (Decidable (_ ∧ _))

instance decidableClosesAt (t : Text) (con : Construct) (i j : Nat) :
    Decidable (t.ClosesAt con i j) :=
  match con with
  | .lineComment => decidableBreaksLine t j
  | .blockComment => inferInstanceAs (Decidable (t.closesBlockAt j = true))
  | .string => decidableEndsLiteral t .quote i j
  | .character => decidableEndsLiteral t .apostrophe i j
  | .verbatim => inferInstanceAs (Decidable (_ ∧ _ ∧ _))

theorem runBefore_succ_of_eq (hij : i < j) (h : t.glyph? j = some g) :
    t.runBefore g i (j + 1) = t.runBefore g i j + 1 :=
  if_pos ⟨hij, h⟩

theorem runBefore_succ_of_ne (h : t.glyph? j ≠ some g) : t.runBefore g i (j + 1) = 0 :=
  if_neg fun hj => h hj.2

theorem runBefore_start (t : Text) (g : Glyph) (i : Nat) : t.runBefore g i (i + 1) = 0 :=
  if_neg fun hi => Nat.lt_irrefl i hi.1

theorem BreaksLine.lt_size (h : t.BreaksLine j) : j < t.size := by
  obtain ⟨c, hc, -⟩ := h
  exact lt_size_of_getElem? hc

theorem EndsLiteral.lt_size (h : t.EndsLiteral delim i j) : j < t.size := by
  rcases h.1 with hquote | hbreak
  · exact lt_size_of_glyph? hquote
  · exact hbreak.lt_size

theorem ClosesAt.lt_size (h : t.ClosesAt con i j) : j < t.size := by
  cases con with
  | lineComment => exact BreaksLine.lt_size h
  | blockComment => exact lt_size_of_glyph? (of_decide_eq_true h).1
  | string => exact EndsLiteral.lt_size h
  | character => exact EndsLiteral.lt_size h
  | verbatim => exact lt_size_of_glyph? h.1

/-! ### One step inside -/

/-- No escape and no doubled quote of the construct that begins at `i` reaches over `j`. -/
def AlignedAt (t : Text) (con : Construct) (i j : Nat) : Prop :=
  match con with
  | .lineComment | .blockComment => True
  | .string | .character => Even (t.runBefore .backslash i j)
  | .verbatim => Even (t.runBefore .quote i j)

/-- The step `s` from `j` ends the construct if something stands there that does, and else
passes over nothing that does, and stays inside. -/
structure Advances (t : Text) (con : Construct) (i j : Nat) (s : Step) : Prop where
  leaves : t.ClosesAt con i j → s.next = .code ∧ s.consumed = con.closerLength
  stays : ¬ t.ClosesAt con i j → s.next = con.context ∧ t.AlignedAt con i (j + s.consumed) ∧
    ∀ m, j < m → m < j + s.consumed → ¬ t.ClosesAt con i m

/-- A step over one character stays inside, and passes over nothing. -/
theorem Advances.of_one (h : ¬ t.ClosesAt con i j) (hnext : t.AlignedAt con i (j + 1)) :
    t.Advances con i j (.one con.context) := by
  refine ⟨fun hcloses => absurd hcloses h, fun _ => ⟨rfl, hnext, ?_⟩⟩
  intro m h1 h2
  have h3 : m < j + 1 := h2
  omega

theorem Advances.of_closes (h : t.ClosesAt con i j) (hs : s.next = .code)
    (hlen : s.consumed = con.closerLength) : t.Advances con i j s :=
  ⟨fun _ => ⟨hs, hlen⟩, fun hno => absurd h hno⟩

theorem advances_lineComment (hget : t[j]? = some c)
    (hs : t.step Construct.lineComment.context j = .ok s) : t.Advances .lineComment i j s := by
  rw [step_of_getElem? hget, Construct.context, Context.step_lineComment] at hs
  obtain rfl := Except.ok.inj hs
  have hcloses : t.ClosesAt .lineComment i j ↔ (Glyph.ofChar c).isLineBreak = true :=
    breaksLine_iff hget
  split
  · next hbreak => exact .of_closes (hcloses.mpr hbreak) rfl rfl
  · next hbreak => exact .of_one (fun h => hbreak (hcloses.mp h)) trivial

theorem advances_blockComment (hget : t[j]? = some c)
    (hs : t.step Construct.blockComment.context j = .ok s) :
    t.Advances .blockComment i j s := by
  rw [step_of_getElem? hget, Construct.context, Context.step_comment] at hs
  obtain rfl := Except.ok.inj hs
  have hcloses : t.ClosesAt .blockComment i j ↔
      Glyph.ofChar c = .star ∧ t.glyph? (j + 1) = some .slash := by
    show t.closesBlockAt j = true ↔ _
    rw [closesBlockAt, decide_eq_true_iff, glyph?_of_getElem? hget, Option.some_inj]
  split
  · next hend => exact .of_closes (hcloses.mpr hend) rfl rfl
  · next hend => exact .of_one (fun h => hend (hcloses.mp h)) trivial

/-- A step over two of the characters whose row tells what is aligned. -/
theorem even_runBefore_add_two (hij : i < j) (hj : t.glyph? j = some g)
    (h : Even (t.runBefore g i j)) : Even (t.runBefore g i (j + 2)) := by
  by_cases hnext : t.glyph? (j + 1) = some g
  · rw [runBefore_succ_of_eq (by omega) hnext, runBefore_succ_of_eq hij hj]
    exact h.add even_two
  · rw [runBefore_succ_of_ne hnext]
    exact Even.zero

/-- The two kinds of literals with escapes differ in their delimiter only. -/
theorem advances_literal (delim : Glyph)
    (hcloses : ∀ j, t.ClosesAt con i j ↔ t.EndsLiteral delim i j)
    (haligned : ∀ j, t.AlignedAt con i j ↔ Even (t.runBefore .backslash i j))
    (hlen : con.closerLength = 1) (hdelim : delim ≠ .backslash)
    (hstep : ∀ before here after, con.context.step before here after =
      if here = .backslash then .two con.context
      else if here = delim ∨ here.isLineBreak = true then .one .code
      else .one con.context)
    (hij : i < j) (hal : t.AlignedAt con i j) (hget : t[j]? = some c)
    (hs : t.step con.context j = .ok s) : t.Advances con i j s := by
  rw [step_of_getElem? hget, hstep] at hs
  obtain rfl := Except.ok.inj hs
  have hglyph : t.glyph? j = some (Glyph.ofChar c) := glyph?_of_getElem? hget
  have hends : t.ClosesAt con i j ↔
      Glyph.ofChar c = delim ∨ (Glyph.ofChar c).isLineBreak = true := by
    rw [hcloses, EndsLiteral, breaksLine_iff hget, hglyph, Option.some_inj]
    exact and_iff_left ((haligned j).mp hal)
  split
  · next hback =>
    rw [hback] at hglyph hends
    have heven : Even (t.runBefore .backslash i j) := (haligned j).mp hal
    refine ⟨fun h => ?_, fun _ => ⟨rfl, ?_, ?_⟩⟩
    · rcases hends.mp h with heq | hbreak
      · exact absurd heq.symm hdelim
      · exact nomatch hbreak
    · exact (haligned _).mpr (even_runBefore_add_two hij hglyph heven)
    · -- What the backslash escapes ends nothing, since a row of odd length stands before it.
      intro m h1 h2 h
      have h3 : m < j + 2 := h2
      obtain rfl : m = j + 1 := by omega
      have hodd := ((hcloses _).mp h).2
      rw [runBefore_succ_of_eq hij hglyph, Nat.even_add_one] at hodd
      exact hodd heven
  · next hback =>
    split
    · next hend => exact .of_closes (hends.mpr hend) rfl hlen.symm
    · next hend =>
      refine .of_one (fun h => hend (hends.mp h)) ((haligned _).mpr ?_)
      rw [runBefore_succ_of_ne (by rwa [hglyph, ne_eq, Option.some_inj])]
      exact Even.zero

theorem advances_verbatim (hij : i < j) (hal : t.AlignedAt .verbatim i j)
    (hget : t[j]? = some c) (hs : t.step Construct.verbatim.context j = .ok s) :
    t.Advances .verbatim i j s := by
  have hglyph : t.glyph? j = some (Glyph.ofChar c) := glyph?_of_getElem? hget
  have heven : Even (t.runBefore .quote i j) := hal
  rw [step_of_getElem? hget, Construct.context] at hs
  by_cases hquote : Glyph.ofChar c = .quote
  · rw [hquote] at hglyph hs
    rw [Context.step_verbatimString_quote] at hs
    have hrow : t.runBefore .quote i (j + 1) = t.runBefore .quote i j + 1 :=
      runBefore_succ_of_eq hij hglyph
    by_cases hnext : t.glyph? (j + 1) = some .quote
    · rw [if_pos hnext] at hs
      obtain rfl := Except.ok.inj hs
      refine ⟨fun h => absurd hnext h.2.1, fun _ => ⟨rfl, ?_, ?_⟩⟩
      · exact even_runBefore_add_two hij hglyph heven
      · -- The second quote ends nothing, since with it the row has an even length.
        intro m h1 h2 h
        have h3 : m < j + 2 := h2
        obtain rfl : m = j + 1 := by omega
        exact Nat.not_even_iff_odd.mpr h.2.2 (even_runBefore_add_two hij hglyph heven)
    · rw [if_neg hnext] at hs
      obtain rfl := Except.ok.inj hs
      have hodd : Odd (t.runBefore .quote i (j + 1)) := hrow ▸ heven.add_one
      exact .of_closes ⟨hglyph, hnext, hodd⟩ rfl rfl
  · rw [Context.step_verbatimString_of_ne hquote] at hs
    obtain rfl := Except.ok.inj hs
    have hne : t.glyph? j ≠ some .quote := by rwa [hglyph, ne_eq, Option.some_inj]
    refine .of_one (fun h => hne h.1) ?_
    show Even (t.runBefore .quote i (j + 1))
    rw [runBefore_succ_of_ne hne]
    exact Even.zero

/-- **One step inside of a construct** ends it where it should, or stays inside. -/
theorem advances (hij : i < j) (hal : t.AlignedAt con i j)
    (hs : t.step con.context j = .ok s) : t.Advances con i j s := by
  obtain ⟨c, hget, -⟩ := exists_getElem?_of_step hs
  cases con with
  | lineComment => exact advances_lineComment hget hs
  | blockComment => exact advances_blockComment hget hs
  | string =>
    exact advances_literal .quote (fun _ => Iff.rfl) (fun _ => Iff.rfl) rfl (by decide)
      (fun _ _ _ => Context.step_string) hij hal hget hs
  | character =>
    exact advances_literal .apostrophe (fun _ => Iff.rfl) (fun _ => Iff.rfl) rfl (by decide)
      (fun _ _ _ => Context.step_character) hij hal hget hs
  | verbatim => exact advances_verbatim hij hal hget hs

/-! ### The run inside -/

/-- As long as nothing ends the construct, the run is inside, and aligned. -/
theorem Reaches.inside (h : t.Reaches p con.context k ctx) (hip : i < p)
    (hal : t.AlignedAt con i p) (hopen : ∀ m, p ≤ m → m < k → ¬ t.ClosesAt con i m) :
    ctx = con.context ∧ t.AlignedAt con i k := by
  induction h with
  | here => exact ⟨rfl, hal⟩
  | @step j ctx s hr hs ih =>
    have hlt : j < j + s.consumed := Nat.lt_add_of_pos_right s.consumed_pos
    obtain ⟨rfl, hj⟩ := ih fun m h1 h2 => hopen m h1 (h2.trans hlt)
    have hadv := advances (hip.trans_le hr.le) hj hs
    obtain ⟨hnext, hal', -⟩ := hadv.stays (hopen j hr.le hlt)
    exact ⟨hnext, hal'⟩

/-- The run comes to what ends the construct first. -/
theorem reaches_of_closesAt (hip : i < p) (hal : t.AlignedAt con i p) (hpj : p ≤ j)
    (hj : t.ClosesAt con i j) (hopen : ∀ m, p ≤ m → m < j → ¬ t.ClosesAt con i m) :
    t.Reaches p con.context j con.context := by
  induction hn : j - p using Nat.strong_induction_on generalizing p with
  | _ n ih =>
  rcases hpj.eq_or_lt with rfl | hlt
  · exact .here
  · obtain ⟨s, hs⟩ : ∃ s, t.step con.context p = .ok s :=
      ⟨_, step_of_lt (hlt.trans hj.lt_size)⟩
    have hpos := s.consumed_pos
    obtain ⟨hnext, hal', hover⟩ := (advances hip hal hs).stays (hopen p (le_refl p) hlt)
    have hle : p + s.consumed ≤ j := by
      by_contra hgt
      exact hover j hlt (Nat.lt_of_not_le hgt) hj
    have hrest := ih _ (by omega) (by omega) hal' hle
      (fun m h1 h2 => hopen m (by omega) h2) rfl
    have hstep : t.Reaches p con.context (p + s.consumed) s.next := .step .here hs
    rw [hnext] at hstep
    exact hstep.trans hrest

/-! ### From code to code -/

theorem step_code_of_opensAt (hi : i < t.size) :
    t.step .code i = .ok (((t.opensAt i).map Construct.opening).getD (.one .code)) := by
  have hget : t[i]? = some t[i] := Array.getElem?_eq_getElem hi
  rw [step_of_getElem? hget, Context.step_code, opensAt, glyph?_of_getElem? hget]
  rfl

theorem step_of_opensAt (h : t.opensAt i = some con) : t.step .code i = .ok con.opening := by
  obtain ⟨g, hg, -⟩ := Option.bind_eq_some_iff.mp h
  rw [step_code_of_opensAt (lt_size_of_glyph? hg), h]
  rfl

theorem alignedAt_start (t : Text) (con : Construct) (i : Nat) :
    t.AlignedAt con i (i + con.openerLength) := by
  have hrow : ∀ g, Even (t.runBefore g i (i + 1)) := by
    intro g
    rw [runBefore_start]
    exact Even.zero
  cases con with
  | lineComment => trivial
  | blockComment => trivial
  | string => exact hrow .backslash
  | character => exact hrow .backslash
  | verbatim => exact hrow .quote

/-- If something ends the construct, something does so first. -/
theorem exists_closedAt (hj : i + con.openerLength ≤ j) (h : t.ClosesAt con i j) :
    ∃ j', j' ≤ j ∧ t.ClosedAt con i j' := by
  have hex : ∃ j, i + con.openerLength ≤ j ∧ t.ClosesAt con i j := ⟨j, hj, h⟩
  refine ⟨Nat.find hex, Nat.find_min' hex ⟨hj, h⟩, Nat.find_spec hex, ?_⟩
  intro m hm
  exact Nat.find_min' hex hm

theorem ClosedAt.open_before (h : t.ClosedAt con i j) {m : Nat} (hm : i + con.openerLength ≤ m)
    (hmj : m < j) : ¬ t.ClosesAt con i m :=
  fun hcloses => Nat.not_le.mpr hmj (h.2 ⟨hm, hcloses⟩)

/-- The run that is code where a construct begins comes to what ends it, and then to code. -/
theorem ClosedAt.reaches (h : t.ClosedAt con i j) :
    t.Reaches (i + con.openerLength) con.context j con.context ∧
      ∃ s, t.step con.context j = .ok s ∧ s.next = .code ∧ s.consumed = con.closerLength := by
  obtain ⟨⟨hpj, hcloses⟩, -⟩ := id h
  have hip : i < i + con.openerLength := Nat.lt_add_of_pos_right con.opening.consumed_pos
  have hal := t.alignedAt_start con i
  have hopen : ∀ m, i + con.openerLength ≤ m → m < j → ¬ t.ClosesAt con i m :=
    fun m hm hmj => h.open_before hm hmj
  have hr := reaches_of_closesAt hip hal hpj hcloses hopen
  obtain ⟨-, hal'⟩ := hr.inside hip hal hopen
  obtain ⟨s, hs⟩ : ∃ s, t.step con.context j = .ok s := ⟨_, step_of_lt hcloses.lt_size⟩
  exact ⟨hr, s, hs, (advances (hip.trans_le hpj) hal' hs).leaves hcloses⟩

/-- Up to the end of a construct, and for good if it has none, the run is inside. -/
theorem context_eq_of_opensAt (hcode : t.VisitsCode start i) (hcon : t.opensAt i = some con)
    (hv : t.Visits start k ctx) (hik : i < k)
    (hend : ∀ j, t.ClosedAt con i j → k < j + con.closerLength) : ctx = con.context := by
  have hip : i < i + con.openerLength := Nat.lt_add_of_pos_right con.opening.consumed_pos
  have hrun : t.Reaches i .code k ctx := by
    rcases (visitsCode_iff.mp hcode).linear hv with hr | hr
    · exact hr
    · exact absurd hr.le (Nat.not_le.mpr hik)
  obtain ⟨rfl, -⟩ | ⟨s, hs, hr⟩ := hrun.eq_or_head
  · exact absurd hik (Nat.lt_irrefl k)
  obtain rfl : con.opening = s := Except.ok.inj ((step_of_opensAt hcon).symm.trans hs)
  refine (Reaches.inside hr hip (t.alignedAt_start con i) fun m h1 h2 hm => ?_).1
  -- What ends the construct before `k` does so with a step that comes to `k` or passes it.
  obtain ⟨j, hjm, hclosed⟩ := exists_closedAt h1 hm
  obtain ⟨hrj, s, hs, -, hlen⟩ := hclosed.reaches
  have hkj := hend j hclosed
  rcases Reaches.le_or_le_of_step hrj hs hr with hle | hle <;> omega

theorem not_visitsCode_of_opensAt (hcode : t.VisitsCode start i) (hcon : t.opensAt i = some con)
    (hik : i < k) (hend : ∀ j, t.ClosedAt con i j → k < j + con.closerLength) :
    ¬ t.VisitsCode start k := by
  rintro ⟨ctx, hv, hctx⟩
  rw [context_eq_of_opensAt hcode hcon hv hik hend, con.isCode_context] at hctx
  exact nomatch hctx

/-- Right behind its end, a construct has run into code. -/
theorem ClosedAt.visitsCode (h : t.ClosedAt con i j) (hcode : t.VisitsCode start i)
    (hcon : t.opensAt i = some con) : t.VisitsCode start (j + con.closerLength) := by
  obtain ⟨hr, s, hs, hnext, hlen⟩ := h.reaches
  have hopened := (visitsCode_iff.mp hcode).step (step_of_opensAt hcon)
  have hclosed := (hopened.trans hr).step hs
  rw [hnext, hlen] at hclosed
  exact visitsCode_iff.mpr hclosed

/-- **Runs read constructs as wholes.**  If a run is code at `i`, it is next in code one
character on, where no construct begins, and else right behind the end of the construct that
does.  On the way there it is inside, and stays so if the construct does not end. -/
theorem isLeast_visitsCode (hcode : t.VisitsCode start i) (hi : i < t.size) :
    (t.opensAt i = none → IsLeast {k | i < k ∧ t.VisitsCode start k} (i + 1)) ∧
    ∀ con, t.opensAt i = some con →
      (∀ j, t.ClosedAt con i j →
        IsLeast {k | i < k ∧ t.VisitsCode start k} (j + con.closerLength)) ∧
      ((∀ j, ¬ t.ClosedAt con i j) → ∀ k, i < k → ¬ t.VisitsCode start k) ∧
      (∀ k ctx, i < k → (∀ j, t.ClosedAt con i j → k < j + con.closerLength) →
        t.Visits start k ctx → ctx = con.context) := by
  constructor
  · intro hnone
    have hstep := step_code_of_opensAt hi
    rw [hnone] at hstep
    refine ⟨⟨Nat.lt_succ_self i, visitsCode_iff.mpr ((visitsCode_iff.mp hcode).step hstep)⟩, ?_⟩
    rintro k ⟨hik, -⟩
    exact hik
  intro con hcon
  refine ⟨?_, ?_, ?_⟩
  · intro j hj
    have hij : i < j :=
      (Nat.lt_add_of_pos_right con.opening.consumed_pos).trans_le hj.1.1
    refine ⟨⟨hij.trans_le (Nat.le_add_right j _), hj.visitsCode hcode hcon⟩, ?_⟩
    rintro k ⟨hik, hk⟩
    by_contra hlt
    refine not_visitsCode_of_opensAt hcode hcon hik (fun j' hj' => ?_) hk
    obtain rfl := hj.unique hj'
    exact Nat.lt_of_not_le hlt
  · intro hnever k hik
    exact not_visitsCode_of_opensAt hcode hcon hik fun j hj => absurd hj (hnever j)
  · intro k ctx hik hend hv
    exact context_eq_of_opensAt hcode hcon hv hik hend

/-- A verbatim string with two quotes in it, one of them right before its end. -/
def doubledQuotesText : Text := .ofString "x = @\"a\"\"b\"\"\"; 'c'"

theorem isLeast_visitsCode_doubledQuotesText :
    (doubledQuotesText.VisitsCode 0 5 ∧ 5 < doubledQuotesText.size ∧
      doubledQuotesText.opensAt 5 = some .verbatim ∧
      doubledQuotesText.ClosedAt .verbatim 5 12) ∧
    IsLeast {k | 5 < k ∧ doubledQuotesText.VisitsCode 0 k} 13 := by
  have hcode : doubledQuotesText.VisitsCode 0 5 := by decide +kernel
  have hi : 5 < doubledQuotesText.size := by decide +kernel
  have hopens : doubledQuotesText.opensAt 5 = some .verbatim := by decide +kernel
  have hearlier : ∀ m < 12, 6 ≤ m → ¬ doubledQuotesText.ClosesAt .verbatim 5 m := by
    decide +kernel
  have hclosed : doubledQuotesText.ClosedAt .verbatim 5 12 := by
    refine ⟨⟨by decide, by decide +kernel⟩, fun m hm => Nat.le_of_not_lt fun hlt => ?_⟩
    exact hearlier m hlt hm.1 hm.2
  refine ⟨⟨hcode, hi, hopens, hclosed⟩, ?_⟩
  exact ((isLeast_visitsCode hcode hi).2 .verbatim hopens).1 12 hclosed

end Text

end BracketMatching
