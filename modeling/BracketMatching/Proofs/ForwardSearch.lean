/-
The forward search is exact for brackets in code.

For an opener that the run from the beginning visits in plain code, on a line
that starts as code and shows no stray end of a block comment before it, the
search finds the first closer, if there is one, that the run visits in plain
code with equally many openers and closers between
(`BracketTable.matchBefore_opener_code`).

A search is a glance and, if that is undecided, a scan.  Both answer for a line
of brackets, by `Sides.FirstCloser`:

* `Text.glancesForward` — the glance, for all brackets of the text; if it is
  decided, there are no marks on its way;
* `Text.findsInRegion` — the scan, for the brackets that the run visits in the region
  of the scan, wherever it has come to, and `Text.findsCloser`, the same in code;
* `Text.exists_partnerAfter` — the two together.

Without marks a run stays in code, which is why the two lines of brackets are
the same where the glance is decided.
-/
import BracketMatching.Proofs.Glances
import BracketMatching.Proofs.Regions
import BracketMatching.Proofs.Search

namespace BracketMatching

namespace Text

variable {t : Text} {b : Bracket} {region : Region} {ctx : Context} {i start depth : Nat}
  {level : Int} {c : Char} {s : Step}

/-! ### The scan -/

theorem closerFrom_of_opener (h : t[i]? = some b.opener) (hc : region.admits ctx = true) :
    t.closerFrom b region depth ctx i = t.closerFrom b region (depth + 1) ctx (i + 1) := by
  have hhas : b.has b.opener = true := Bracket.has_iff.mpr (.inl rfl)
  rw [closerFrom, if_pos (lt_size_of_getElem? h), read_eq_ok_iff.mpr h]
  simp only [bind, Except.bind, hhas, hc, Bool.and_self, ↓reduceIte]

theorem closerFrom_of_closer (hb : b.Usable) (h : t[i]? = some b.closer)
    (hc : region.admits ctx = true) :
    t.closerFrom b region (depth + 1) ctx i =
      if depth = 0 then .ok (some i) else t.closerFrom b region depth ctx (i + 1) := by
  have hhas : b.has b.closer = true := Bracket.has_iff.mpr (.inr rfl)
  rw [closerFrom, if_pos (lt_size_of_getElem? h), read_eq_ok_iff.mpr h]
  simp only [bind, Except.bind, hhas, hc, Bool.and_self, ↓reduceIte, hb.opener_ne_closer.symm,
    lower_succ]
  rfl

theorem closerFrom_of_step (h : t[i]? = some c) (hc : (b.has c && region.admits ctx) = false)
    (hs : t.step ctx i = .ok s) :
    t.closerFrom b region depth ctx i =
      if region = .literal ∧ s.next.inLiteral = false then .ok none
      else t.closerFrom b region depth s.next (i + s.consumed) := by
  rw [closerFrom, if_pos (lt_size_of_getElem? h), read_eq_ok_iff.mpr h]
  simp only [bind, Except.bind, hc, Bool.false_eq_true, ↓reduceIte, hs]
  rfl

/-- From `i` on, a scan finds the first closer at `level` among the brackets that the
run from `start` visits in the region; in literals, if the run stays in one up to it. -/
def FindsInRegion (t : Text) (b : Bracket) (region : Region) (start : Nat) (level : Int) (i : Nat)
    (answer : Except Fault (Option Nat)) : Prop :=
  ∃ r, answer = .ok r ∧ ∀ k, r = some k ↔
    (t.regionSides b region start).FirstCloser level i (some k) ∧
      (region = .literal → t.StaysInLiteral start i k)

namespace FindsInRegion

variable {answer : Except Fault (Option Nat)}

/-- Over what is no closer at the level, the scan takes the step of the run. -/
theorem of_step (h : t.Visits start i ctx) (hctx : region = .literal → ctx.inLiteral = true)
    (hs : t.step ctx i = .ok s)
    (hskip : ∀ m, i ≤ m → m < i + s.consumed → t.regionSides b region start m = some .backward →
      (t.regionSides b region start).height m ≠ level)
    (hnext : t.FindsInRegion b region start level (i + s.consumed) answer) :
    t.FindsInRegion b region start level i answer := by
  obtain ⟨r, hr, hiff⟩ := hnext
  have hle : i ≤ i + s.consumed := Nat.le_add_right i s.consumed
  refine ⟨r, hr, fun k => (hiff k).trans ⟨fun ⟨hfirst, hstays⟩ => ?_, fun ⟨hfirst, hstays⟩ => ?_⟩⟩
  · exact ⟨hfirst.of_later hle hskip, fun hlit => (hstays hlit).cons h hs (hctx hlit)⟩
  · obtain ⟨⟨hik, hk, hlevel⟩, -⟩ := id hfirst
    have hlek : i + s.consumed ≤ k := Nat.le_of_not_lt fun hlt => hskip k hik hlt hk hlevel
    exact ⟨hfirst.of_ge hle hlek, fun hlit => (hstays hlit).mono hle (le_refl k)⟩

theorem of_succ (h : t.Visits start i ctx) (hctx : region = .literal → ctx.inLiteral = true)
    (hs : t.step ctx i = .ok (.one ctx))
    (hskip : t.regionSides b region start i = some .backward →
      (t.regionSides b region start).height i ≠ level)
    (hnext : t.FindsInRegion b region start level (i + 1) answer) :
    t.FindsInRegion b region start level i answer := by
  refine of_step h hctx hs (fun m h1 h2 => ?_) hnext
  obtain rfl : m = i := Nat.le_antisymm (Nat.le_of_lt_succ h2) h1
  exact hskip

theorem here (h : t.Visits start i ctx) (hctx : region = .literal → ctx.inLiteral = true)
    (hside : t.regionSides b region start i = some .backward)
    (hl : (t.regionSides b region start).height i = level) :
    t.FindsInRegion b region start level i (.ok (some i)) := by
  have hfirst := Sides.FirstCloser.here hside hl
  refine ⟨some i, rfl, fun k => ⟨?_, fun hk => hfirst.unique hk.1⟩⟩
  rintro ⟨⟩
  exact ⟨hfirst, fun hlit => .single h (hctx hlit)⟩

/-- Behind the end of its literal a scan finds nothing. -/
theorem of_left (h : t.Visits start i ctx) (hs : t.step ctx i = .ok s)
    (hnone : ∀ m, i ≤ m → m < i + s.consumed → t.regionSides b region start m = none)
    (hleft : region = .literal ∧ s.next.inLiteral = false) :
    t.FindsInRegion b region start level i (.ok none) := by
  refine ⟨none, rfl, fun k => ⟨(nomatch ·), fun ⟨⟨⟨hik, hk, _⟩, _⟩, hstays⟩ => ?_⟩⟩
  have hlek : i + s.consumed ≤ k :=
    Nat.le_of_not_lt fun hlt => nomatch (hnone k hik hlt).symm.trans hk
  have hin := hstays hleft.1 _ s.next (Nat.le_add_right i s.consumed) hlek (h.step hs)
  exact nomatch hleft.2.symm.trans hin

theorem of_size_le (h : t.size ≤ i) :
    t.FindsInRegion b region start level i (t.closerFrom b region depth ctx i) := by
  refine ⟨none, ?_, fun k => ⟨(nomatch ·), fun ⟨⟨⟨hik, hk, _⟩, _⟩, _⟩ => ?_⟩⟩
  · rw [closerFrom, if_neg (Nat.not_lt.mpr h)]
  · have hside := (regionSides_eq_some.mp hk).2
    rw [sides_of_size_le (h.trans hik)] at hside
    exact nomatch hside

end FindsInRegion

/-- **The forward scan** waits for the level that its depth stands for, among the
brackets that the run it follows visits in the region of the scan. -/
theorem findsInRegion (hb : b.Usable) (h : t.Visits start i ctx)
    (hctx : region = .literal → ctx.inLiteral = true)
    (hl : (t.regionSides b region start).height i = level + depth) :
    t.FindsInRegion b region start level i (t.closerFrom b region (depth + 1) ctx i) := by
  induction hn : t.size - i using Nat.strong_induction_on generalizing depth i ctx with
  | _ n ih =>
  by_cases hlt : i < t.size
  · have hget : t[i]? = some t[i] := Array.getElem?_eq_getElem hlt
    rcases hcount : b.has t[i] && region.admits ctx with _ | _
    · obtain ⟨s, hs⟩ : ∃ s, t.step ctx i = .ok s := ⟨_, step_of_lt hlt⟩
      have hpos := s.consumed_pos
      have hnone : ∀ m, i ≤ m → m < i + s.consumed → t.regionSides b region start m = none :=
        fun _ => regionSides_of_step h hget hcount hs
      have hheight := Sides.height_eq_of_none (Nat.le_add_right i s.consumed) hnone
      rw [closerFrom_of_step hget hcount hs]
      by_cases hleft : region = .literal ∧ s.next.inLiteral = false
      · rw [if_pos hleft]
        exact .of_left h hs hnone hleft
      · have hnext : region = .literal → s.next.inLiteral = true := fun hlit =>
          Bool.not_eq_false _ ▸ fun hout => hleft ⟨hlit, hout⟩
        rw [if_neg hleft]
        refine .of_step h hctx hs (fun m h1 h2 hm => nomatch (hnone m h1 h2).symm.trans hm) ?_
        exact ih _ (by omega) (h.step hs) hnext (hheight.trans hl) rfl
    · obtain ⟨hhas, hadmits⟩ := Bool.and_eq_true_iff.mp hcount
      have hstep : t.step ctx i = .ok (.one ctx) := step_of_plain hget (hb.plain_of_has hhas)
      have hvisit : t.Visits start (i + 1) ctx := h.step hstep
      have hside := regionSides_of_counted h hget hcount
      rcases Bracket.has_iff.mp hhas with hc | hc
      · rw [Bracket.side?_eq_forward.mpr hc] at hside
        have hup := Sides.height_succ_of_forward hside
        rw [closerFrom_of_opener (hc ▸ hget) hadmits]
        exact .of_succ h hctx hstep (fun hback => nomatch hside.symm.trans hback)
          (ih _ (by omega) hvisit hctx (by omega) rfl)
      · rw [(Bracket.side?_eq_backward hb.opener_ne_closer).mpr hc] at hside
        have hdown := Sides.height_succ_of_backward hside
        rw [closerFrom_of_closer hb (hc ▸ hget) hadmits]
        cases depth with
        | zero => exact .here h hctx hside (by omega)
        | succ depth =>
          exact .of_succ h hctx hstep (fun _ => by omega)
            (ih _ (by omega) hvisit hctx (by omega) rfl)
  · exact .of_size_le (Nat.not_lt.mp hlt)

/-- From `i` on, a scan finds the first closer at `level` among the brackets that the
run from `start` visits in plain code. -/
def FindsCloser (t : Text) (b : Bracket) (start : Nat) (level : Int) (i : Nat)
    (answer : Except Fault (Option Nat)) : Prop :=
  ∃ r, answer = .ok r ∧ (t.codeSides b start).FirstCloser level i r

theorem findsCloser (hb : b.Usable) (h : t.Visits start i ctx)
    (hl : (t.codeSides b start).height i = level + depth) :
    t.FindsCloser b start level i (t.closerFrom b .code (depth + 1) ctx i) := by
  have hctx : Region.code = .literal → ctx.inLiteral = true := nofun
  rw [← regionSides_code] at hl
  obtain ⟨r, hr, hiff⟩ := findsInRegion hb h hctx hl
  simp only [regionSides_code] at hiff
  refine ⟨r, hr, ?_⟩
  cases r with
  | none =>
    exact Sides.firstCloser_none_of_forall fun k hk => nomatch (hiff k).mpr ⟨hk, nofun⟩
  | some k => exact ((hiff k).mp rfl).1

/-! ### The search -/

/-- What is decided at a glance from code on is right about the brackets in code. -/
theorem firstCloser_of_unmarked {r : Option Nat} (h : t.VisitsCode 0 i)
    (hfirst : (t.sides b).FirstCloser ((t.sides b).height i) i r)
    (hm : t.Unmarked i (r.getD t.size)) :
    (t.codeSides b 0).FirstCloser ((t.codeSides b 0).height i) i r := by
  refine hfirst.congr fun j hij hj => ?_
  by_cases hlt : j < t.size
  · refine (codeSides_eq_sides_of_unmarked h (hm.mono (le_refl i) ?_) hij).symm
    cases r with
    | none => exact hlt.le
    | some k => exact hj k rfl
  · have hnone := sides_of_size_le (b := b) (Nat.not_lt.mp hlt)
    rw [codeSides, hnone, ite_self]

/-- The scan from just behind an opener in code finds its first closer. -/
theorem exists_closerAfter (hb : b.Usable) (ho : t[i]? = some b.opener)
    (hcode : t.VisitsCode 0 i) (hline : t.VisitsCode 0 (t.lineStart i))
    (hstray : t.NoStrayEnd 0 (t.lineStart i) i) :
    ∃ r, Yields (t.closerAfter b (i + 1)) r ∧
      (t.codeSides b 0).FirstCloser ((t.codeSides b 0).height (i + 1)) (i + 1) r := by
  have hnext : t.VisitsCode 0 (i + 1) :=
    ⟨.code, (visitsCode_iff.mp hcode).step (step_of_plain ho hb.opener_plain), rfl⟩
  rw [closerAfter]
  by_cases hlt : i + 1 < t.size
  · have hle : t.lineStart i ≤ i := t.lineStart_le_self i
    have hsame : t.lineStart (i + 1) = t.lineStart i :=
      lineStart_succ_of_plain ho hb.opener_plain
    have hsite : t.siteAt (t.lineStart (i + 1)) (i + 1) = .ok .code := by
      rw [hsame]
      exact siteAt_of_visitsCode ((hline.visitsCode_iff_of_le (by omega)).mp hnext)
        ((hstray.of_visitsCode hline).succ_of_plain ho hb.opener_plain)
    obtain ⟨r, hr, hfirst⟩ :=
      findsCloser hb (visitsCode_iff.mp hnext) (Int.add_zero _).symm
    refine ⟨r, ?_, hfirst⟩
    rw [if_pos hlt, hsite]
    simp only [bind, Except.bind, Site.region?, hr]
    exact .quiet r
  · refine ⟨none, ?_, fun k hk hs => ?_⟩
    · rw [if_neg hlt]
      exact .quiet none
    · obtain ⟨-, hs⟩ := codeSides_eq_some.mp hs
      rw [sides_of_size_le (by omega)] at hs
      exact nomatch hs

theorem partnerAfter_of_undecided {r : Option Nat} (h : t.glanceForward b i = .ok .undecided)
    (hr : Yields (t.closerAfter b i) r) : Yields (t.partnerAfter b i) r := by
  rw [partnerAfter, h]
  exact hr.after _

theorem partnerAfter_of_decided {r : Option Nat} (h : t.glanceForward b i = .ok (.decided r)) :
    Yields (t.partnerAfter b i) r := by
  rw [partnerAfter, h]
  cases r <;> exact .quiet _

/-- Glance and scan together find the first closer of an opener in code. -/
theorem exists_partnerAfter (hb : b.Usable) (ho : t[i]? = some b.opener)
    (hcode : t.VisitsCode 0 i) (hline : t.VisitsCode 0 (t.lineStart i))
    (hstray : t.NoStrayEnd 0 (t.lineStart i) i) :
    ∃ r, Yields (t.partnerAfter b (i + 1)) r ∧
      (t.codeSides b 0).FirstCloser ((t.codeSides b 0).height (i + 1)) (i + 1) r := by
  have hnext : t.VisitsCode 0 (i + 1) :=
    ⟨.code, (visitsCode_iff.mp hcode).step (step_of_plain ho hb.opener_plain), rfl⟩
  obtain ⟨hu, -⟩ | ⟨r, hr, hfirst, hm⟩ := glanceForward_right hb (i + 1)
  · obtain ⟨r, hr, hfirst⟩ := exists_closerAfter hb ho hcode hline hstray
    exact ⟨r, partnerAfter_of_undecided hu hr, hfirst⟩
  · exact ⟨r, partnerAfter_of_decided hr, firstCloser_of_unmarked hnext hfirst hm⟩

end Text

namespace BracketTable

variable {table : BracketTable} {t : Text} {b : Bracket} {o : Nat}

/-- **The forward search is exact for brackets in code.**  The opener is visited in
plain code by the run from the beginning, which is in plain code at the start of
the opener's line, too, and meets no stray end of a block comment between the two. -/
theorem matchBefore_opener_code (hb : b ∈ table.brackets) (ho : t[o]? = some b.opener)
    (hcode : t.VisitsCode 0 o) (hline : t.VisitsCode 0 (t.lineStart o))
    (hstray : t.NoStrayEnd 0 (t.lineStart o) o) :
    (∀ k, IsLeast {k | t.CodePairs b o k} k →
      Yields (table.matchBefore t (o + 1)) (some ⟨⟨o, 1⟩, ⟨k, 1⟩⟩)) ∧
    ((∀ k, ¬ t.CodePairs b o k) → Yields (table.matchBefore t (o + 1)) none) := by
  have hu := usable_of_mem hb
  have hside : t.codeSides b 0 o = some .forward :=
    Text.codeSides_eq_some.mpr ⟨hcode, Text.sides_eq_forward.mpr ho⟩
  obtain ⟨r, hr, hfirst⟩ := Text.exists_partnerAfter hu ho hcode hline hstray
  have hmatch := yields_matchBefore_opener hb ho hr
  simp only [Text.codePairs_iff hu]
  rcases r with _ | k'
  · have hnone := (Sides.firstCloser_none_iff hside).mp hfirst
    exact ⟨fun k hk => absurd hk.1 (hnone k), fun _ => hmatch⟩
  · have hleast := (Sides.firstCloser_some_iff hside).mp hfirst
    refine ⟨fun k hk => ?_, fun hnone => absurd hleast.1 (hnone k')⟩
    obtain rfl := hk.unique hleast
    rwa [Option.map_some, Match.ofOffsets_of_lt hk.1.1] at hmatch

/-- A call whose arguments hide brackets in a string, a character literal and two
comments. -/
def callText : Text := .ofString "f(\"(\", ')', /* ( */ x) // )"

theorem matchBefore_callText :
    (callText[1]? = some '(' ∧ callText.VisitsCode 0 1 ∧
      callText.VisitsCode 0 (callText.lineStart 1) ∧
      callText.NoStrayEnd 0 (callText.lineStart 1) 1) ∧
    IsLeast {k | callText.CodePairs ⟨'(', ')'⟩ 1 k} 21 ∧
    Yields (standard.matchBefore callText 2) (some ⟨⟨1, 1⟩, ⟨21, 1⟩⟩) := by
  have hyps : callText[1]? = some '(' ∧ callText.VisitsCode 0 1 ∧
      callText.VisitsCode 0 (callText.lineStart 1) ∧
      callText.NoStrayEnd 0 (callText.lineStart 1) 1 := by decide +kernel
  have hfirst : ∀ k < 21, ¬ callText.CodePairs ⟨'(', ')'⟩ 1 k := by decide +kernel
  have hleast : IsLeast {k | callText.CodePairs ⟨'(', ')'⟩ 1 k} 21 :=
    ⟨by decide +kernel, fun k hk => Nat.le_of_not_lt fun hlt => hfirst k hlt hk⟩
  obtain ⟨ho, hcode, hline, hstray⟩ := id hyps
  have hb : ⟨'(', ')'⟩ ∈ standard.brackets := by decide
  exact ⟨hyps, hleast, (matchBefore_opener_code hb ho hcode hline hstray).1 21 hleast⟩

end BracketTable

end BracketMatching
