/-
Balanced words: what stands between two brackets that belong together.

`Proofs/Nesting.lean` says by heights which brackets pair up.  Here the same is
said by grammar: a word of brackets is balanced if it is empty, or an opener, a
balanced word, a closer that answers the opener, and a balanced word again.

* `Balanced` — the grammar;
* `Sides.word` — the brackets between two offsets, as a word;
* `Sides.balanced_word_iff` — a word is balanced exactly if the height comes back
  to where it was and has not been below that in between (`Sides.Closed`);
* `Sides.isLeast_pairs_iff_balanced` — a closer is the first one of its opener
  exactly if the word between the two is balanced.
-/
import BracketMatching.Proofs.Nesting
import Mathlib.Data.List.Basic

namespace BracketMatching

/-- Every opener of the word is answered by a closer behind it, and no closer is
left over. -/
inductive Balanced : (word : List Direction) → Prop
  | nil : Balanced []
  | nest {u v : List Direction} :
      Balanced u → Balanced v → Balanced (.forward :: (u ++ .backward :: v))

namespace Sides

/-- What the brackets of a word add to the height. -/
def total : (word : List Direction) → Int
  | [] => 0
  | d :: w => rise (some d) + total w

@[simp] theorem total_nil : total [] = 0 := rfl

@[simp] theorem total_cons (d : Direction) (w : List Direction) :
    total (d :: w) = rise (some d) + total w := rfl

@[simp] theorem total_append (u v : List Direction) : total (u ++ v) = total u + total v := by
  induction u with
  | nil => simp
  | cons d u ih => simp [ih, Int.add_assoc]

end Sides

namespace Balanced

variable {w p q : List Direction}

theorem total_eq_zero (h : Balanced w) : Sides.total w = 0 := by
  induction h with
  | nil => rfl
  | nest _ _ ihu ihv => simp [ihu, ihv, Sides.rise]

/-- At no place in a balanced word have there been more closers than openers. -/
theorem total_nonneg (h : Balanced w) (hw : w = p ++ q) : 0 ≤ Sides.total p := by
  induction h generalizing p q with
  | nil => simp [(List.append_eq_nil_iff.mp hw.symm).1]
  | @nest u v hu _ ihu ihv =>
    cases p with
    | nil => simp
    | cons d p =>
      obtain ⟨rfl, hp⟩ := List.cons.inj hw
      rcases List.append_eq_append_iff.mp hp with ⟨r, rfl, hr⟩ | ⟨r, hr, -⟩
      · -- The place lies behind the inner word, before its closer or behind it.
        cases r with
        | nil => simp [hu.total_eq_zero, Sides.rise]
        | cons d r =>
          obtain ⟨rfl, hv⟩ := List.cons.inj hr
          have := ihv hv
          simp only [Sides.total_cons, Sides.total_append, hu.total_eq_zero, Sides.rise]
          omega
      · have := ihu hr
        simp only [Sides.total_cons, Sides.rise]
        omega

end Balanced

namespace Sides

variable {s : Sides} {i k m lo hi o : Nat}

/-! ### The word between two offsets -/

/-- The brackets at the offsets `lo`, …, `hi - 1`, in order. -/
def word (s : Sides) (lo hi : Nat) : List Direction := (List.range' lo (hi - lo)).filterMap s

@[simp] theorem word_self (s : Sides) (lo : Nat) : s.word lo lo = [] := by
  simp [word]

theorem word_append (hlo : lo ≤ m) (hhi : m ≤ hi) :
    s.word lo hi = s.word lo m ++ s.word m hi := by
  have hmid : lo + (m - lo) = m := by omega
  have hlen : hi - lo = (m - lo) + (hi - m) := by omega
  rw [word, word, word, ← List.filterMap_append, hlen, ← List.range'_append_1, hmid]

theorem word_cons (h : lo < hi) : s.word lo hi = (s lo).toList ++ s.word (lo + 1) hi := by
  have hone : s.word lo (lo + 1) = (s lo).toList := by
    rw [word, Nat.add_sub_cancel_left, List.range'_one]
    rcases hs : s lo with _ | d <;> simp [hs]
  rw [word_append (Nat.le_succ lo) h, hone]

theorem height_eq_add_total (h : lo ≤ hi) :
    s.height hi = s.height lo + total (s.word lo hi) := by
  induction h with
  | refl => simp
  | @step m hm ih =>
    have hm : lo ≤ m := hm
    have hlast : total (s.word m (m + 1)) = rise (s m) := by
      rw [word_cons (Nat.lt_succ_self m), word_self, List.append_nil]
      cases s m <;> simp [rise]
    rw [height, word_append hm (Nat.le_succ m), total_append, hlast, ih]
    omega

/-! ### Balance and heights -/

/-- The height at `hi` is that at `lo`, and in between it has not been lower. -/
structure Closed (s : Sides) (lo hi : Nat) : Prop where
  height_eq : s.height hi = s.height lo
  height_le : ∀ m, lo ≤ m → m ≤ hi → s.height lo ≤ s.height m

/-- A closer is the first one of its opener exactly if everything that is opened
between the two is closed between them. -/
theorem isLeast_pairs_iff_closed (ho : s o = some .forward) (hk : s k = some .backward)
    (hok : o < k) : IsLeast {k | s.Pairs o k} k ↔ s.Closed (o + 1) k := by
  constructor
  · rintro ⟨⟨-, -, -, hheight⟩, hmin⟩
    refine ⟨hheight.symm, fun m hom hmk => ?_⟩
    by_contra hlt
    -- On the way below the level there would be an earlier closer at the level.
    obtain ⟨j, h1, h2, h3, h4⟩ :=
      exists_backward_of_height_lt hom (le_refl (s.height (o + 1))) (by omega)
    have := hmin (show s.Pairs o j from ⟨by omega, ho, h3, h4.symm⟩)
    omega
  · rintro ⟨hheight, hle⟩
    refine ⟨⟨hok, ho, hk, hheight.symm⟩, fun m ⟨hom, _, hm, hmo⟩ => ?_⟩
    by_contra hlt
    have hdown := height_succ_of_backward hm
    have := hle (m + 1) (by omega) (by omega)
    omega

theorem Closed.balanced_word (h : s.Closed lo hi) (hle : lo ≤ hi) : Balanced (s.word lo hi) := by
  induction hn : hi - lo using Nat.strong_induction_on generalizing lo hi with
  | _ n ih =>
  obtain rfl | hlt := hle.eq_or_lt
  · rw [word_self]
    exact .nil
  · have hafter : ∀ {m}, lo < m → m ≤ hi → s.height lo ≤ s.height m :=
      fun h1 h2 => h.height_le _ h1.le h2
    have hheight := h.height_eq
    rw [word_cons hlt]
    rcases hs : s lo with _ | _ | _
    · have hup := height_succ_of_none hs
      have hrest : s.Closed (lo + 1) hi :=
        ⟨by omega, fun m h1 h2 => by have := hafter h1 h2; omega⟩
      exact ih _ (by omega) hrest hlt rfl
    · -- The word splits at the first closer of its first opener.
      have hup := height_succ_of_forward hs
      obtain ⟨j, h1, h2, h3, h4⟩ :=
        exists_backward_of_height_lt hlt (le_refl (s.height (lo + 1))) (by omega)
      obtain ⟨k, hk⟩ := Pairs.exists_isLeast (show s.Pairs lo j from ⟨h1, hs, h3, h4.symm⟩)
      obtain ⟨hlok, -, hkc, hkh⟩ := id hk.1
      have hkj : k ≤ j := hk.2 ⟨h1, hs, h3, h4.symm⟩
      have hdown := height_succ_of_backward hkc
      have hinner := (isLeast_pairs_iff_closed hs hkc hlok).mp hk
      have hrest : s.Closed (k + 1) hi :=
        ⟨by omega, fun m h1 h2 => by have := hafter (show lo < m by omega) h2; omega⟩
      rw [word_append (show lo + 1 ≤ k from hlok) (by omega),
        word_cons (show k < hi by omega), hkc]
      exact .nest (ih _ (by omega) hinner hlok rfl) (ih _ (by omega) hrest (by omega) rfl)
    · have hdown := height_succ_of_backward hs
      have hfloor : s.height lo ≤ s.height (lo + 1) := hafter (Nat.lt_succ_self lo) hlt
      omega

/-- **Balance, by grammar and by heights.** -/
theorem balanced_word_iff (hle : lo ≤ hi) : Balanced (s.word lo hi) ↔ s.Closed lo hi := by
  refine ⟨fun h => ⟨?_, fun m h1 h2 => ?_⟩, fun h => h.balanced_word hle⟩
  · rw [height_eq_add_total hle, h.total_eq_zero]
    omega
  · have := h.total_nonneg (word_append h1 h2)
    rw [height_eq_add_total h1]
    omega

/-- **First closers are behind balanced words.** -/
theorem isLeast_pairs_iff_balanced (ho : s o = some .forward) (hk : s k = some .backward)
    (hok : o < k) : IsLeast {k | s.Pairs o k} k ↔ Balanced (s.word (o + 1) k) := by
  rw [isLeast_pairs_iff_closed ho hk hok, balanced_word_iff (Nat.succ_le_of_lt hok)]

end Sides

end BracketMatching
