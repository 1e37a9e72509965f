/-
The schedule of a widening scan, and what its trace tells of it.

A backward scan that starts in code widens its window by one line, then by two more, then by
four, and so on, until a window decides or starts with the text.  So the `k`th widening goes
to the line start `2 ^ k - 1` lines above the first window, as long as there are that many,
and there are only as many widenings as it takes for that to be all lines.

* `Text.windowStart_eq` — the windows, by the number of lines that they reach up;
* `Text.exists_openerWidening_eq` — the events of a widening scan are its widenings, in
  order, and then at most one more, which says that the closer is out of context;
* `Text.FollowsSchedule` — what a trace and its result have to do with that schedule;
* `BracketTable.openerBefore_followsSchedule` — **the backward scan follows the schedule**,
  and ends.
-/
import BracketMatching.Proofs.LineFeeds
import BracketMatching.Proofs.Widening
import Mathlib.Tactic.Ring

namespace BracketMatching

/-- Where the window starts that a scan was widened to, if that is what happened. -/
def Event.widenedTo? : Event → Option Nat
  | .widened windowStart _ => some windowStart
  | .search _ | .forwardUndecided _ | .backwardUndecided _ | .forwardInComment _ _
  | .backwardInComment _ _ | .outOfContext _ _ => none

/-- Where the windows start that a search was widened to, first things first. -/
def Traced.widenedTo {α : Type} (traced : Traced α) : List Nat :=
  traced.events.filterMap Event.widenedTo?

/-- Where the last window starts of a search that began with the one from `start`. -/
def Traced.lastStart {α : Type} (traced : Traced α) (start : Nat) : Nat :=
  traced.widenedTo.getLastD start

namespace Text

variable {t : Text} {b : Bracket} {last m n round start w : Nat} {r : Option Nat}

/-! ### Where the windows start -/

/-- After `n` widenings the window starts as many lines up as they have added up to. -/
theorem windowStart_eq (t : Text) (round w n : Nat) :
    t.windowStart round w n = t.lineStartAbove w ((2 ^ n - 1) * 2 ^ round) := by
  induction n generalizing round w with
  | zero => simp [windowStart]
  | succ n ih =>
    obtain ⟨a, ha⟩ : ∃ a, 2 ^ n = a + 1 := Nat.exists_eq_succ_of_ne_zero (Nat.two_pow_pos n).ne'
    have hsum : 2 ^ round + (2 ^ n - 1) * 2 ^ (round + 1) = (2 ^ (n + 1) - 1) * 2 ^ round := by
      have hnext : 2 ^ (n + 1) - 1 = 2 * a + 1 := by
        rw [pow_succ, ha]
        omega
      rw [hnext, ha, Nat.add_sub_cancel, pow_succ]
      ring
    rw [windowStart, ih, ← hsum]
    exact t.lineStartAbove_add w _ _

theorem windowStart_first (t : Text) (w n : Nat) :
    t.windowStart 0 w n = t.lineStartAbove w (2 ^ n - 1) := by
  rw [windowStart_eq, pow_zero, Nat.mul_one]

/-- The windows reach up by one line feed less than a power of two, or to the beginning. -/
theorem lineFeeds_windowStart (hw : t.IsLineStart w) (n : Nat) :
    t.lineFeeds (t.windowStart 0 w n) w = min (2 ^ n - 1) (t.lineFeeds 0 w) := by
  rw [windowStart_first]
  exact lineFeeds_lineStartAbove hw _

/-- From a window that does not start with the text, all later ones start further up. -/
theorem windowStart_lt (hmn : m < n) (h : t.windowStart 0 w m ≠ 0) :
    t.windowStart 0 w n < t.windowStart 0 w m := by
  have hpow : 2 ^ m < 2 ^ n := Nat.pow_lt_pow_right (by decide) hmn
  have hsum : 2 ^ n - 1 = (2 ^ m - 1) + (2 ^ n - 2 ^ m) := by
    have := Nat.two_pow_pos m
    omega
  rw [windowStart_first] at h
  rw [windowStart_first, windowStart_first, hsum, ← lineStartAbove_add]
  exact t.lineStartAbove_lt h (by omega)

/-! ### The trace -/

/-- The starts of the first `n` windows that come after the one from `w`. -/
def laterStarts (t : Text) (round w n : Nat) : List Nat :=
  (List.range n).map fun k => t.windowStart round w (k + 1)

theorem laterStarts_succ (t : Text) (round w n : Nat) :
    t.laterStarts round w (n + 1) =
      t.widerStart round w :: t.laterStarts (round + 1) (t.widerStart round w) n := by
  rw [laterStarts, laterStarts, List.range_succ_eq_map, List.map_cons, List.map_map]
  rfl

/-- What a scan whose last window starts at `w` tells behind its widenings: nothing, or that
the closer is out of context.  It does the latter if it finds none in a window that could
have been widened. -/
def ClosesTrace (last w : Nat) (r : Option Nat) (closing : List Event) : Prop :=
  closing = [] ∧ (r = none → w = 0) ∨ closing = [.outOfContext w last]

theorem ClosesTrace.filterMap_widenedTo? {closing : List Event} (h : ClosesTrace last w r closing) :
    closing.filterMap Event.widenedTo? = [] := by
  obtain ⟨rfl, -⟩ | rfl := h <;> rfl

/-- A window that decides is the last one. -/
theorem DecidesAt.exists_eq (h : t.DecidesAt b last w r) (round : Nat) :
    ∃ closing, t.openerWidening b last round w = .ok ⟨r, closing⟩ ∧
      ClosesTrace last w r closing := by
  rw [openerWidening.eq_def]
  cases h with
  | opener h =>
    rw [h]
    exact ⟨[], rfl, .inl ⟨rfl, nofun⟩⟩
  | outOfContext h =>
    rw [h]
    exact ⟨[.outOfContext w last], rfl, .inr rfl⟩
  | noOpener h hw =>
    subst hw
    rw [h]
    exact ⟨[], rfl, .inl ⟨rfl, fun _ => rfl⟩⟩

/-- A window that leaves the decision open is told of by the start of the next one. -/
theorem LeavesOpen.openerWidening_eq (h : t.LeavesOpen b last w) {found : Traced (Option Nat)}
    (hwider : t.openerWidening b last (round + 1) (t.widerStart round w) = .ok found) :
    t.openerWidening b last round w =
      .ok (found.after (.widened (t.widerStart round w) last)) := by
  obtain ⟨hw, h | h⟩ := h
  all_goals
    rw [openerWidening.eq_def, h]
    simp only [bind, Except.bind, hw, ↓reduceDIte, hwider]
    rfl

/-- **The events of a widening scan** are its widenings in order, up to the window that
decides, and what that one has to tell. -/
theorem exists_openerWidening_eq (round : Nat) (hb : b.Usable) (hlast : last < t.size)
    (hwl : w ≤ last + 1) :
    ∃ n r closing,
      t.openerWidening b last round w =
        .ok ⟨r, (t.laterStarts round w n).map (Event.widened · last) ++ closing⟩ ∧
      t.DecidesAt b last (t.windowStart round w n) r ∧
      ClosesTrace last (t.windowStart round w n) r closing ∧
      ∀ m, m < n → t.windowStart round w m ≠ 0 := by
  -- The induction is on the start of the window, which each widening moves up.
  induction w using Nat.strong_induction_on generalizing round with
  | _ w ih =>
  rcases decidesAt_or_leavesOpen hb hlast hwl with ⟨r, hr⟩ | hopen
  · obtain ⟨closing, heq, hclosing⟩ := hr.exists_eq round
    exact ⟨0, r, closing, heq, hr, hclosing, fun m hm => absurd hm (Nat.not_lt_zero m)⟩
  · have hlt := t.widerStart_lt round hopen.1
    obtain ⟨n, r, closing, heq, hr, hclosing, hbefore⟩ :=
      ih _ hlt (round + 1) (hlt.le.trans hwl)
    refine ⟨n + 1, r, closing, ?_, hr, hclosing, fun m hm => ?_⟩
    · rw [hopen.openerWidening_eq heq, laterStarts_succ]
      rfl
    · cases m with
      | zero => exact hopen.1
      | succ m => exact hbefore m (Nat.lt_of_succ_lt_succ hm)

/-! ### The schedule -/

/-- What a scan with the first window from `start` was widened to, and what it found up to
`last`, is as the doubling schedule has it. -/
structure FollowsSchedule (t : Text) (last start : Nat) (found : Traced (Option Nat)) :
    Prop where
  /-- The widenings go one line up, three lines, seven, … or to the beginning of the text. -/
  lineFeeds_eq : ∀ k w, found.widenedTo[k]? = some w →
    t.IsLineStart w ∧ w ≤ start ∧
      t.lineFeeds w start = min (2 ^ (k + 1) - 1) (t.lineFeeds 0 start)
  /-- Each goes further up than the ones before. -/
  decreasing : (start :: found.widenedTo).Pairwise (· > ·)
  /-- There are no more of them than it takes to pass all lines. -/
  length_le : ∀ m, t.lineFeeds 0 start ≤ 2 ^ m - 1 → found.widenedTo.length ≤ m
  /-- An opener that is found lies in the last window. -/
  of_some : ∀ q, found.result = some q → found.lastStart start ≤ q ∧ q ≤ last
  /-- None is found only if the last window starts with the text, or ends the scan with
  the closer out of context. -/
  of_none : found.result = none → found.lastStart start = 0 ∨
    found.events.getLast? = some (.outOfContext (found.lastStart start) last)

theorem pairwise_laterStarts (hbefore : ∀ m, m < n → t.windowStart 0 w m ≠ 0) :
    (w :: t.laterStarts 0 w n).Pairwise (· > ·) := by
  have hstarts : w :: t.laterStarts 0 w n = (List.range (n + 1)).map (t.windowStart 0 w) := by
    rw [List.range_succ_eq_map, List.map_cons, List.map_map]
    rfl
  rw [hstarts, List.pairwise_map]
  refine List.pairwise_lt_range.imp_of_mem fun {i j} _ hj hij => ?_
  exact windowStart_lt hij (hbefore i (hij.trans_le (Nat.le_of_lt_succ (List.mem_range.mp hj))))

/-- A window that has passed all lines starts with the text, and is the last one. -/
theorem length_le_of_lineFeeds_le (hw : t.IsLineStart w)
    (hbefore : ∀ m, m < n → t.windowStart 0 w m ≠ 0) (hm : t.lineFeeds 0 w ≤ 2 ^ m - 1) :
    n ≤ m := by
  by_contra hlt
  -- Else the window after `m` widenings starts with the text, and was widened once more.
  refine hbefore m (Nat.lt_of_not_le hlt) ?_
  refine (isLineStart_windowStart 0 m hw).eq_zero_of_lineFeeds_eq (t.windowStart_le 0 w m) ?_
  rw [lineFeeds_windowStart hw, Nat.min_eq_right hm]

theorem getLastD_laterStarts (t : Text) (w n : Nat) :
    (t.laterStarts 0 w n).getLastD w = t.windowStart 0 w n := by
  cases n with
  | zero => rfl
  | succ n => simp [laterStarts, List.range_succ]

/-- A widening scan from a line start follows the schedule. -/
theorem exists_openerWidening_followsSchedule (hb : b.Usable) (hlast : last < t.size)
    (hw : t.IsLineStart w) (hwl : w ≤ last + 1) :
    ∃ found, t.openerWidening b last 0 w = .ok found ∧ t.FollowsSchedule last w found := by
  obtain ⟨n, r, closing, heq, hr, hclosing, hbefore⟩ :=
    exists_openerWidening_eq 0 hb hlast hwl
  refine ⟨_, heq, ?_⟩
  generalize hfound : (⟨r, (t.laterStarts 0 w n).map (Event.widened · last) ++ closing⟩ :
    Traced (Option Nat)) = found
  have hevents : found.events = (t.laterStarts 0 w n).map (Event.widened · last) ++ closing :=
    hfound ▸ rfl
  have hresult : found.result = r := hfound ▸ rfl
  have hstarts : found.widenedTo = t.laterStarts 0 w n := by
    rw [Traced.widenedTo, hevents, List.filterMap_append, hclosing.filterMap_widenedTo?,
      List.append_nil, List.filterMap_map]
    exact List.filterMap_some
  have hend : found.lastStart w = t.windowStart 0 w n := by
    rw [Traced.lastStart, hstarts, getLastD_laterStarts]
  -- All of the schedule is now about the windows `0`, …, `n`.
  constructor
  case lineFeeds_eq =>
    intro k w' hk
    rw [hstarts, laterStarts, List.getElem?_map] at hk
    obtain ⟨k', hk', rfl⟩ := Option.map_eq_some_iff.mp hk
    obtain ⟨hlt, rfl⟩ := List.getElem?_eq_some_iff.mp hk'
    rw [List.getElem_range]
    exact ⟨isLineStart_windowStart 0 _ hw, t.windowStart_le 0 w _, lineFeeds_windowStart hw _⟩
  case decreasing =>
    rw [hstarts]
    exact pairwise_laterStarts hbefore
  case length_le =>
    intro m hm
    rw [hstarts, laterStarts, List.length_map, List.length_range]
    exact length_le_of_lineFeeds_le hw hbefore hm
  case of_some =>
    intro q hq
    rw [hend]
    rw [hresult] at hq
    subst hq
    cases hr with
    | opener h =>
      have hle : t.windowStart 0 w n ≤ last + 1 := (t.windowStart_le 0 w n).trans hwl
      obtain ⟨-, -, ⟨hwq, hql, -⟩, -⟩ := (readWindow_eq_opener_iff hb hlast hle).mp h
      exact ⟨hwq, Nat.le_of_lt_succ hql⟩
  case of_none =>
    intro hq
    rw [hend]
    refine hclosing.imp (fun ⟨_, hzero⟩ => hzero (hresult ▸ hq)) fun hout => ?_
    rw [hevents, hout, List.getLast?_concat]

end Text

namespace BracketTable

variable {table : BracketTable} {t : Text} {b : Bracket} {last : Nat}

/-- **The backward scan follows the doubling schedule**, and ends: from a place in code it
has a result, and its trace and its result are as the schedule has it. -/
theorem openerBefore_followsSchedule (hb : b ∈ table.brackets) (hk : last + 1 < t.size)
    (hsite : t.siteAt (t.lineStart (last + 1)) (last + 1) = .ok .code) :
    ∃ found, t.openerBefore b last = .ok found ∧
      t.FollowsSchedule last (t.lineStart (last + 1)) found := by
  rw [Text.openerBefore_of_site hk hsite]
  exact Text.exists_openerWidening_followsSchedule (usable_of_mem hb) (Nat.lt_of_succ_lt hk)
    (t.isLineStart_lineStart (last + 1)) (t.lineStart_le_self (last + 1))

/-- A call over seven lines, two of which are empty. -/
def tallCallText : Text := .ofString "f(\n\na,\n// )\n\n'(',\nb)"

theorem openerBefore_tallCallText :
    (18 + 1 < tallCallText.size ∧ tallCallText.lineStart 19 = 18 ∧
      tallCallText.siteAt (tallCallText.lineStart 19) 19 = .ok .code) ∧
    tallCallText.openerBefore ⟨'(', ')'⟩ 18 =
      .ok ⟨some 1, [.widened 13 18, .widened 7 18, .widened 0 18]⟩ ∧
    tallCallText.FollowsSchedule 18 18
      ⟨some 1, [.widened 13 18, .widened 7 18, .widened 0 18]⟩ := by
  have hk : 18 + 1 < tallCallText.size := by decide +kernel
  have hline : tallCallText.lineStart (18 + 1) = 18 := by decide +kernel
  have hsite : tallCallText.siteAt (tallCallText.lineStart (18 + 1)) (18 + 1) = .ok .code := by
    decide +kernel
  have hrun : tallCallText.openerBefore ⟨'(', ')'⟩ 18 =
      .ok ⟨some 1, [.widened 13 18, .widened 7 18, .widened 0 18]⟩ := by decide +kernel
  have hb : ⟨'(', ')'⟩ ∈ standard.brackets := by decide
  obtain ⟨found, hfound, hschedule⟩ := openerBefore_followsSchedule hb hk hsite
  obtain rfl := Except.ok.inj (hrun.symm.trans hfound)
  rw [hline] at hschedule
  exact ⟨⟨hk, hline, hsite⟩, hrun, hschedule⟩

/-- A window that misses the closer ends the scan, and says so. -/
example : (Text.ofString "(/*\n@\"*/\n)").openerBefore ⟨'(', ')'⟩ 8 =
    .ok ⟨none, [.widened 4 8, .outOfContext 4 8]⟩ := by
  decide +kernel

end BracketTable

end BracketMatching
