/-
Nesting: how deep the brackets of a line of offsets are.

All that a search needs to know of a text is which offsets hold a bracket that
counts, and on which side its partner lies.  Such a `Sides` has a `height`
before every offset, the number of openers less the number of closers so far,
and two brackets pair up exactly if the height just behind the one is the
height just before the other:

* `Sides.FirstCloser`, `Sides.LastOpener` — what a scan to the right, and one
  to the left, has to answer, said by heights and without a counter or a stack;
* `Sides.Stacked` — the stack of openers that a reading keeps, said by what it
  holds at every depth, and kept by what it does at an opener (`Stacked.push`) and
  at a closer (`Stacked.pop`);
* `Sides.isLeast_pairs_iff_isGreatest` — the first closer of an opener has that
  opener as its last one, and conversely: both directions find the same pairs;
* `Sides.height_eq_add_count` — heights are counts of brackets.

Design note: a scan that counts carries a depth that changes with every
bracket.  The height that it waits for does not change, which is why the two
answers are stated for a fixed `level`.
-/
import BracketMatching.Bracket.Basic
import Mathlib.Order.Bounds.Basic

namespace BracketMatching

/-- Which offsets hold a bracket, and on which side its partner lies. -/
abbrev Sides := Nat → Option Direction

namespace Sides

/-- What a bracket, or none, adds to the height. -/
def rise : Option Direction → Int
  | none => 0
  | some .forward => 1
  | some .backward => -1

/-- The number of openers less the number of closers before an offset. -/
def height (s : Sides) : (offset : Nat) → Int
  | 0 => 0
  | n + 1 => s.height n + rise (s n)

variable {s s' : Sides} {i j k lo hi : Nat} {level : Int}

theorem height_succ_of_none (h : s i = none) : s.height (i + 1) = s.height i := by
  simp [height, rise, h]

theorem height_succ_of_forward (h : s i = some .forward) :
    s.height (i + 1) = s.height i + 1 := by
  simp [height, rise, h]

theorem height_succ_of_backward (h : s i = some .backward) :
    s.height (i + 1) = s.height i - 1 := by
  simp only [height, rise, h]
  omega

/-- A descent below a level passes a closer that stands at it. -/
theorem exists_backward_of_height_lt (hle : lo ≤ hi) (hlo : level ≤ s.height lo)
    (hhi : s.height hi < level) :
    ∃ k, lo ≤ k ∧ k < hi ∧ s k = some .backward ∧ s.height k = level := by
  induction hle with
  | refl => omega
  | @step m hm ih =>
    by_cases hlt : s.height m < level
    · obtain ⟨k, h1, h2, h3⟩ := ih hlt
      exact ⟨k, h1, Nat.lt_succ_of_lt h2, h3⟩
    · refine ⟨m, hm, Nat.lt_succ_self m, ?_⟩
      rcases hs : s m with _ | _ | _
      · rw [height_succ_of_none hs] at hhi
        omega
      · rw [height_succ_of_forward hs] at hhi
        omega
      · rw [height_succ_of_backward hs] at hhi
        exact ⟨rfl, by omega⟩

/-- A climb above a level passes an opener that stands at it. -/
theorem exists_forward_of_lt_height (hle : lo ≤ hi) (hlo : s.height lo ≤ level)
    (hhi : level < s.height hi) :
    ∃ q, lo ≤ q ∧ q < hi ∧ s q = some .forward ∧ s.height q = level := by
  induction hle with
  | refl => omega
  | @step m hm ih =>
    by_cases hlt : level < s.height m
    · obtain ⟨q, h1, h2, h3⟩ := ih hlt
      exact ⟨q, h1, Nat.lt_succ_of_lt h2, h3⟩
    · refine ⟨m, hm, Nat.lt_succ_self m, ?_⟩
      rcases hs : s m with _ | _ | _
      · rw [height_succ_of_none hs] at hhi
        omega
      · rw [height_succ_of_forward hs] at hhi
        exact ⟨rfl, by omega⟩
      · rw [height_succ_of_backward hs] at hhi
        omega

/-- Where two lines of brackets agree, they rise by the same amount. -/
theorem height_sub_congr (hle : lo ≤ hi) (h : ∀ j, lo ≤ j → j < hi → s j = s' j) :
    s.height hi - s.height lo = s'.height hi - s'.height lo := by
  induction hle with
  | refl => omega
  | @step m hm ih =>
    have hsub := ih fun j h1 h2 => h j h1 (Nat.lt_succ_of_lt h2)
    have hm' : s m = s' m := h m hm (Nat.lt_succ_self m)
    simp only [height, hm']
    omega

theorem height_eq_of_none (hle : lo ≤ hi) (h : ∀ j, lo ≤ j → j < hi → s j = none) :
    s.height hi = s.height lo := by
  induction hle with
  | refl => rfl
  | @step m hm ih =>
    rw [height_succ_of_none (h m hm (Nat.lt_succ_self m))]
    exact ih fun j h1 h2 => h j h1 (Nat.lt_succ_of_lt h2)

/-! ### Pairs -/

/-- An opener and a closer behind it, with as many openers as closers between. -/
def Pairs (s : Sides) (o k : Nat) : Prop :=
  o < k ∧ s o = some .forward ∧ s k = some .backward ∧ s.height (o + 1) = s.height k

/-- **Both directions find the same pairs**: a closer is the first one of its
opener exactly if the opener is the last one of its closer. -/
theorem isLeast_pairs_iff_isGreatest {o : Nat} :
    IsLeast {k | s.Pairs o k} k ↔ IsGreatest {o | s.Pairs o k} o := by
  constructor
  · rintro ⟨⟨hok, ho, hk, hh⟩, hmin⟩
    refine ⟨⟨hok, ho, hk, hh⟩, fun q hq => ?_⟩
    obtain ⟨hqk, hqf, -, hqh⟩ := hq
    by_contra hlt
    -- Below a later opener the height would fall under that of the pair.
    have hq1 : s.height q < s.height (o + 1) := by
      rw [height_succ_of_forward hqf] at hqh
      omega
    obtain ⟨m, h1, h2, h3, h4⟩ :=
      exists_backward_of_height_lt (by omega) (le_refl (s.height (o + 1))) hq1
    have := hmin (show s.Pairs o m from ⟨by omega, ho, h3, h4.symm⟩)
    omega
  · rintro ⟨⟨hok, ho, hk, hh⟩, hmax⟩
    refine ⟨⟨hok, ho, hk, hh⟩, fun m hm => ?_⟩
    obtain ⟨hom, -, hmb, hmh⟩ := hm
    by_contra hlt
    have hm1 : s.height (m + 1) ≤ s.height k - 1 := by
      rw [height_succ_of_backward hmb]
      omega
    -- From behind an earlier closer the height would climb back to that of the pair.
    obtain ⟨q, h1, h2, h3, h4⟩ :=
      exists_forward_of_lt_height (by omega : m + 1 ≤ k) hm1 (by omega : s.height k - 1 < s.height k)
    have hq : s.height (q + 1) = s.height k := by
      rw [height_succ_of_forward h3]
      omega
    have := hmax (show s.Pairs q k from ⟨h2, h3, hk, hq⟩)
    omega

/-! ### The answer of a scan to the right -/

/-- `r` is the first closer at `level` from `i` on, if there is one. -/
def FirstCloser (s : Sides) (level : Int) (i : Nat) : (r : Option Nat) → Prop
  | some k => IsLeast {k | i ≤ k ∧ s k = some .backward ∧ s.height k = level} k
  | none => ∀ k, i ≤ k → s k = some .backward → s.height k ≠ level

theorem FirstCloser.here (hs : s i = some .backward) (hl : s.height i = level) :
    s.FirstCloser level i (some i) :=
  ⟨⟨Nat.le_refl i, hs, hl⟩, fun _ hk => hk.1⟩

theorem FirstCloser.unique {r r' : Option Nat} (h : s.FirstCloser level i r)
    (h' : s.FirstCloser level i r') : r = r' := by
  cases r with
  | none =>
    cases r' with
    | none => rfl
    | some k => exact absurd h'.1.2.2 (h k h'.1.1 h'.1.2.1)
  | some k =>
    cases r' with
    | none => exact absurd h.1.2.2 (h' k h.1.1 h.1.2.1)
    | some k' => exact congrArg some (IsLeast.unique h h')

/-- A scan may pass over what is not a closer at the level. -/
theorem FirstCloser.of_later {r : Option Nat} (h : s.FirstCloser level j r) (hij : i ≤ j)
    (hskip : ∀ m, i ≤ m → m < j → s m = some .backward → s.height m ≠ level) :
    s.FirstCloser level i r := by
  have hge : ∀ {m}, i ≤ m → s m = some .backward → s.height m = level → j ≤ m := by
    intro m him hm hml
    by_contra hlt
    exact hskip m him (by omega) hm hml
  cases r with
  | none => exact fun m him hm hml => h m (hge him hm hml) hm hml
  | some k =>
    obtain ⟨⟨hjk, hk⟩, hmin⟩ := h
    exact ⟨⟨hij.trans hjk, hk⟩, fun m ⟨him, hm, hml⟩ => hmin ⟨hge him hm hml, hm, hml⟩⟩

theorem FirstCloser.of_succ {r : Option Nat} (h : s.FirstCloser level (i + 1) r)
    (hs : s i = some .backward → s.height i ≠ level) : s.FirstCloser level i r := by
  refine h.of_later (Nat.le_succ i) fun m h1 h2 hm => ?_
  obtain rfl : m = i := by omega
  exact hs hm

theorem FirstCloser.succ (h : s.FirstCloser level i (some k))
    (hs : s i = some .backward → s.height i ≠ level) : s.FirstCloser level (i + 1) (some k) := by
  obtain ⟨⟨hik, hk, hkl⟩, hmin⟩ := h
  have hne : i ≠ k := by
    rintro rfl
    exact hs hk hkl
  exact ⟨⟨by omega, hk, hkl⟩, fun m ⟨him, hm⟩ => hmin ⟨by omega, hm⟩⟩

/-- A closer that is found is found as well by a search that starts no later than at it. -/
theorem FirstCloser.of_ge (h : s.FirstCloser level i (some k)) (hij : i ≤ j) (hjk : j ≤ k) :
    s.FirstCloser level j (some k) := by
  obtain ⟨⟨-, hk⟩, hmin⟩ := h
  exact ⟨⟨hjk, hk⟩, fun m ⟨hm, h⟩ => hmin ⟨hij.trans hm, h⟩⟩

theorem firstCloser_none_of_forall (h : ∀ k, ¬ s.FirstCloser level i (some k)) :
    s.FirstCloser level i none := by
  intro k hik hk hl
  induction k using Nat.strong_induction_on with
  | _ k ih =>
  refine h k ⟨⟨hik, hk, hl⟩, fun m ⟨him, hm, hml⟩ => ?_⟩
  by_contra hlt
  exact ih m (Nat.lt_of_not_le hlt) him hm hml

/-- The answer depends on the brackets up to the closer found only. -/
theorem FirstCloser.congr {r : Option Nat} (h : s.FirstCloser (s.height i) i r)
    (hss : ∀ j, i ≤ j → (∀ k, r = some k → j ≤ k) → s j = s' j) :
    s'.FirstCloser (s'.height i) i r := by
  -- Up to the closer the two heights differ by what they differ by at `i`.
  have hsub : ∀ {m}, i ≤ m → (∀ k, r = some k → m ≤ k) →
      s.height m - s.height i = s'.height m - s'.height i := by
    intro m him hm
    exact height_sub_congr him fun j h1 h2 => hss j h1 fun k hk => by have := hm k hk; omega
  cases r with
  | none =>
    intro m him hm hml
    have := hsub him (fun k hk => nomatch hk)
    exact h m him ((hss m him fun k hk => nomatch hk).trans hm) (by omega)
  | some k =>
    obtain ⟨⟨hik, hk, hkl⟩, hmin⟩ := h
    have hle : ∀ {m}, m ≤ k → ∀ k', some k = some k' → m ≤ k' := by
      rintro m hm _ ⟨⟩
      exact hm
    have hik' := hsub hik (hle (le_refl k))
    refine ⟨⟨hik, (hss k hik (hle (le_refl k))).symm.trans hk, by omega⟩, ?_⟩
    rintro m ⟨him, hm, hml⟩
    by_contra hlt
    have hmk : m ≤ k := by omega
    have := hsub him (hle hmk)
    exact hlt (hmin ⟨him, (hss m him (hle hmk)).trans hm, by omega⟩)

/-! ### The answer of a scan to the left -/

/-- `r` is the last opener between `lo` and `hi` with `level` just behind it, if
there is one. -/
def LastOpener (s : Sides) (level : Int) (lo hi : Nat) : (r : Option Nat) → Prop
  | some q => IsGreatest {q | lo ≤ q ∧ q < hi ∧ s q = some .forward ∧ s.height (q + 1) = level} q
  | none => ∀ q, lo ≤ q → q < hi → s q = some .forward → s.height (q + 1) ≠ level

theorem LastOpener.empty (h : hi ≤ lo) : s.LastOpener level lo hi none := by
  intro q h1 h2
  omega

theorem LastOpener.here (hlo : lo ≤ i) (hs : s i = some .forward)
    (hl : s.height (i + 1) = level) : s.LastOpener level lo (i + 1) (some i) :=
  ⟨⟨hlo, Nat.lt_succ_self i, hs, hl⟩, fun _ hq => Nat.le_of_lt_succ hq.2.1⟩

theorem LastOpener.unique {r r' : Option Nat} (h : s.LastOpener level lo hi r)
    (h' : s.LastOpener level lo hi r') : r = r' := by
  cases r with
  | none =>
    cases r' with
    | none => rfl
    | some q => exact absurd h'.1.2.2.2 (h q h'.1.1 h'.1.2.1 h'.1.2.2.1)
  | some q =>
    cases r' with
    | none => exact absurd h.1.2.2.2 (h' q h.1.1 h.1.2.1 h.1.2.2.1)
    | some q' => exact congrArg some (IsGreatest.unique h h')

/-- A scan may pass over what is not an opener at the level. -/
theorem LastOpener.of_earlier {r : Option Nat} (h : s.LastOpener level lo i r) (hij : i ≤ j)
    (hskip : ∀ m, i ≤ m → m < j → s m = some .forward → s.height (m + 1) ≠ level) :
    s.LastOpener level lo j r := by
  have hlt : ∀ {m}, m < j → s m = some .forward → s.height (m + 1) = level → m < i := by
    intro m hmj hm hml
    by_contra hge
    exact hskip m (by omega) hmj hm hml
  cases r with
  | none => exact fun m hlo hmj hm hml => h m hlo (hlt hmj hm hml) hm hml
  | some q =>
    obtain ⟨⟨hlo, hqi, hq⟩, hmax⟩ := h
    exact ⟨⟨hlo, hqi.trans_le hij, hq⟩,
      fun m ⟨hlom, hmj, hm, hml⟩ => hmax ⟨hlom, hlt hmj hm hml, hm, hml⟩⟩

theorem LastOpener.of_succ {r : Option Nat} (h : s.LastOpener level lo i r)
    (hs : s i = some .forward → s.height (i + 1) ≠ level) : s.LastOpener level lo (i + 1) r := by
  refine h.of_earlier (Nat.le_succ i) fun m h1 h2 hm => ?_
  obtain rfl : m = i := by omega
  exact hs hm

theorem LastOpener.pred {q : Nat} (h : s.LastOpener level lo (i + 1) (some q))
    (hs : s i = some .forward → s.height (i + 1) ≠ level) : s.LastOpener level lo i (some q) := by
  obtain ⟨⟨hlo, hqi, hq, hql⟩, hmax⟩ := h
  have hne : q ≠ i := by
    rintro rfl
    exact hs hq hql
  exact ⟨⟨hlo, by omega, hq, hql⟩, fun m ⟨hlom, hmi, hm⟩ => hmax ⟨hlom, by omega, hm⟩⟩

/-- An opener found between `lo` and `hi` is found from any earlier offset. -/
theorem LastOpener.of_le {q lo' : Nat} (h : s.LastOpener level lo hi (some q))
    (hlo : lo' ≤ lo) : s.LastOpener level lo' hi (some q) := by
  obtain ⟨⟨h1, hq⟩, hmax⟩ := h
  refine ⟨⟨hlo.trans h1, hq⟩, fun m ⟨_, hm⟩ => ?_⟩
  by_cases hlom : lo ≤ m
  · exact hmax ⟨hlom, hm⟩
  · omega

/-- An opener found is found as well if the search stops no later than at it. -/
theorem LastOpener.of_ge {q lo' : Nat} (h : s.LastOpener level lo hi (some q)) (hlo : lo ≤ lo')
    (hq : lo' ≤ q) : s.LastOpener level lo' hi (some q) := by
  obtain ⟨⟨-, h1⟩, hmax⟩ := h
  exact ⟨⟨hq, h1⟩, fun m ⟨hm, h2⟩ => hmax ⟨hlo.trans hm, h2⟩⟩

theorem exists_lastOpener (s : Sides) (level : Int) (hi : Nat) :
    ∃ r, s.LastOpener level 0 hi r := by
  induction hi with
  | zero => exact ⟨none, .empty (Nat.le_refl 0)⟩
  | succ i ih =>
    by_cases hi : s i = some .forward ∧ s.height (i + 1) = level
    · exact ⟨some i, .here (Nat.zero_le i) hi.1 hi.2⟩
    · obtain ⟨r, hr⟩ := ih
      exact ⟨r, hr.of_succ fun hs hl => hi ⟨hs, hl⟩⟩

/-- The answer depends on the brackets behind the opener found only. -/
theorem LastOpener.congr {r : Option Nat} (h : s.LastOpener (s.height hi) lo hi r)
    (hss : ∀ j, lo ≤ j → j < hi → (∀ q, r = some q → q ≤ j) → s j = s' j) :
    s'.LastOpener (s'.height hi) lo hi r := by
  -- Behind the opener the two heights differ by what they differ by at `hi`.
  have hsub : ∀ {m}, lo ≤ m → m < hi → (∀ q, r = some q → q ≤ m) →
      s.height hi - s.height (m + 1) = s'.height hi - s'.height (m + 1) := by
    intro m hlom hmhi hm
    exact height_sub_congr hmhi fun j h1 h2 =>
      hss j (by omega) h2 fun q hq => by have := hm q hq; omega
  cases r with
  | none =>
    intro m hlom hmhi hm hml
    have := hsub hlom hmhi (fun q hq => nomatch hq)
    exact h m hlom hmhi ((hss m hlom hmhi fun q hq => nomatch hq).trans hm) (by omega)
  | some q =>
    obtain ⟨⟨hloq, hqhi, hq, hql⟩, hmax⟩ := h
    have hle : ∀ {m}, q ≤ m → ∀ q', some q = some q' → q' ≤ m := by
      rintro m hm _ ⟨⟩
      exact hm
    have hq' := hsub hloq hqhi (hle (le_refl q))
    refine ⟨⟨hloq, hqhi, (hss q hloq hqhi (hle (le_refl q))).symm.trans hq, by omega⟩, ?_⟩
    rintro m ⟨hlom, hmhi, hm, hml⟩
    by_contra hlt
    have hqm : q ≤ m := by omega
    have := hsub hlom hmhi (hle hqm)
    exact hlt (hmax ⟨hlom, hmhi, (hss m hlom hmhi (hle hqm)).trans hm, by omega⟩)

/-- The stack of a reading from `lo` that has come to `i`: further and further
down it has the openers that wait for one, two, three, … closers more. -/
def Stacked (s : Sides) (lo i : Nat) (stack : List Nat) : Prop :=
  ∀ n : Nat, s.LastOpener (s.height i - n) lo i stack[n]?

theorem Stacked.nil (s : Sides) (lo : Nat) : s.Stacked lo lo [] := by
  intro n
  rw [List.getElem?_nil]
  exact .empty (Nat.le_refl lo)

theorem Stacked.push {stack : List Nat} (h : s.Stacked lo i stack) (hlo : lo ≤ i)
    (hs : s i = some .forward) : s.Stacked lo (i + 1) (i :: stack) := by
  have hup := height_succ_of_forward hs
  -- The new opener waits for the next closer, and the others for one more than before.
  intro n
  cases n with
  | zero => exact .here hlo hs (by omega)
  | succ n =>
    have hlevel : s.height (i + 1) - (n + 1 : Nat) = s.height i - n := by omega
    rw [List.getElem?_cons_succ, hlevel]
    exact (h n).of_succ fun _ => by omega

/-- A closer takes the top off the stack, and nothing off an empty one. -/
theorem Stacked.pop {stack : List Nat} (h : s.Stacked lo i stack)
    (hs : s i = some .backward) : s.Stacked lo (i + 1) stack.tail := by
  have hdown := height_succ_of_backward hs
  intro n
  have hlevel : s.height (i + 1) - n = s.height i - (n + 1 : Nat) := by omega
  rw [List.getElem?_tail, hlevel]
  exact (h (n + 1)).of_succ fun hf => by rw [hs] at hf; exact nomatch hf

theorem Stacked.skip {stack : List Nat} (h : s.Stacked lo i stack) (hij : i ≤ j)
    (hs : ∀ m, i ≤ m → m < j → s m = none) : s.Stacked lo j stack := by
  intro n
  rw [height_eq_of_none hij hs]
  refine (h n).of_earlier hij fun m h1 h2 hm => ?_
  rw [hs m h1 h2] at hm
  exact nomatch hm

/-- What is on top is the opener that waits for the very next closer. -/
theorem Stacked.head {stack : List Nat} (h : s.Stacked lo i stack) :
    s.LastOpener (s.height i) lo i stack.head? := by
  have htop := h 0
  rwa [Int.natCast_zero, Int.sub_zero, ← List.head?_eq_getElem?] at htop

/-! ### Pairs as answers -/

theorem firstCloser_some_iff {o : Nat} (ho : s o = some .forward) :
    s.FirstCloser (s.height (o + 1)) (o + 1) (some k) ↔ IsLeast {k | s.Pairs o k} k := by
  have hset : {k | o + 1 ≤ k ∧ s k = some .backward ∧ s.height k = s.height (o + 1)} =
      {k | s.Pairs o k} := by
    ext m
    exact ⟨fun ⟨h1, h2, h3⟩ => ⟨h1, ho, h2, h3.symm⟩, fun ⟨h1, _, h2, h3⟩ => ⟨h1, h2, h3.symm⟩⟩
  rw [FirstCloser, hset]

theorem firstCloser_none_iff {o : Nat} (ho : s o = some .forward) :
    s.FirstCloser (s.height (o + 1)) (o + 1) none ↔ ∀ k, ¬ s.Pairs o k :=
  ⟨fun h k ⟨h1, _, h2, h3⟩ => h k h1 h2 h3.symm, fun h k h1 h2 h3 => h k ⟨h1, ho, h2, h3.symm⟩⟩

theorem lastOpener_some_iff {q : Nat} (hk : s k = some .backward) :
    s.LastOpener (s.height k) 0 k (some q) ↔ IsGreatest {o | s.Pairs o k} q := by
  have hset : {q | 0 ≤ q ∧ q < k ∧ s q = some .forward ∧ s.height (q + 1) = s.height k} =
      {o | s.Pairs o k} := by
    ext m
    exact ⟨fun ⟨_, h1, h2, h3⟩ => ⟨h1, h2, hk, h3⟩, fun ⟨h1, h2, _, h3⟩ => ⟨m.zero_le, h1, h2, h3⟩⟩
  rw [LastOpener, hset]

theorem lastOpener_none_iff (hk : s k = some .backward) :
    s.LastOpener (s.height k) 0 k none ↔ ∀ o, ¬ s.Pairs o k :=
  ⟨fun h o ⟨h1, h2, _, h3⟩ => h o o.zero_le h1 h2 h3, fun h o _ h1 h2 h3 => h o ⟨h1, h2, hk, h3⟩⟩

theorem Pairs.exists_isLeast {o : Nat} (h : s.Pairs o k) :
    ∃ k', IsLeast {k | s.Pairs o k} k' := by
  induction k using Nat.strong_induction_on with
  | _ k ih =>
  by_cases hless : ∃ m, m < k ∧ s.Pairs o m
  · obtain ⟨m, hmk, hm⟩ := hless
    exact ih m hmk hm
  · exact ⟨k, h, fun m hm => Nat.le_of_not_lt fun hmk => hless ⟨m, hmk, hm⟩⟩

theorem Pairs.exists_isGreatest {o : Nat} (h : s.Pairs o k) :
    ∃ q, IsGreatest {o | s.Pairs o k} q := by
  obtain ⟨r, hr⟩ := s.exists_lastOpener (s.height k) k
  cases r with
  | none => exact absurd h ((lastOpener_none_iff h.2.2.1).mp hr o)
  | some q => exact ⟨q, (lastOpener_some_iff h.2.2.1).mp hr⟩

/-! ### Heights as counts -/

/-- The number of brackets of one side at the offsets `lo`, …, `hi - 1`. -/
def count (s : Sides) (d : Direction) (lo hi : Nat) : Nat :=
  (List.range' lo (hi - lo)).countP fun i => s i = some d

theorem count_succ (d : Direction) (h : lo ≤ hi) :
    s.count d lo (hi + 1) = s.count d lo hi + if s hi = some d then 1 else 0 := by
  have hlen : hi + 1 - lo = hi - lo + 1 := by omega
  have hlast : lo + (hi - lo) = hi := by omega
  rw [count, count, hlen, List.range'_1_concat, List.countP_append, hlast]
  simp [List.countP_cons]

/-- Heights are counts of brackets. -/
theorem height_eq_add_count (h : lo ≤ hi) :
    s.height hi = s.height lo + s.count .forward lo hi - s.count .backward lo hi := by
  induction h with
  | refl => simp [count]
  | @step m hm ih =>
    have hm : lo ≤ m := hm
    rw [height, count_succ _ hm, count_succ _ hm, ih]
    rcases s m with _ | _ | _ <;> simp [rise] <;> omega

end Sides

end BracketMatching
