/-
Lines of a text, located by their starts.

A line start is offset `0` or the offset after a line feed; a carriage return
starts no line.  `Text.lineStart` finds the start of the line that an offset
lies on, and `Text.lineStartAbove` walks up from a line start by a number of
lines, stopping at the first:

* `Text.lineStart_le` — a line starts at or before the offsets on it, inside
  the text;
* `Text.isLineStart_lineStart` — what is found is a line start, and so inside
  the text (`Text.IsLineStart.le_size`);
* `Text.ne_lineFeed_of_lineStart_le` — no line feed stands between it and the
  offset, so it is the nearest one;
* `Text.isLineStart_lineStartAbove` — a walk from a line start ends at one;
* `Text.lineStartAbove_lt` — a walk of at least one line from below the first
  line goes strictly up, which is why a search that keeps walking ends.

Design note: an offset past the end lies on the last line, so both functions
are total and need no fault.
-/
import BracketMatching.Text.Basic

namespace BracketMatching

namespace Text

/-- Offset `i` starts a line: it is the first offset, or follows a line feed. -/
def IsLineStart (t : Text) (i : Nat) : Prop :=
  i = 0 ∨ ∃ j, i = j + 1 ∧ t[j]? = some '\n'

instance decidableIsLineStart (t : Text) (i : Nat) : Decidable (t.IsLineStart i) :=
  match i with
  | 0 => isTrue (.inl rfl)
  | j + 1 => decidable_of_iff (t[j]? = some '\n')
      ⟨fun h => .inr ⟨j, rfl, h⟩, fun h => by simpa [IsLineStart] using h⟩

/-- The offset after the last line feed among the first `n` characters, or `0`. -/
def lineStartBelow (t : Text) : (n : Nat) → n ≤ t.size → Nat
  | 0, _ => 0
  | n + 1, h => if t[n] = '\n' then n + 1 else lineStartBelow t n (Nat.le_of_succ_le h)

/-- The start of the line that `offset` lies on: just after the nearest line
feed strictly before it, or `0`.  Past the end, that of the last line. -/
def lineStart (t : Text) (offset : Nat) : Nat :=
  lineStartBelow t (min offset t.size) (Nat.min_le_right ..)

/-- The line start reached by walking `lines` lines up from the line start
`start`, or `0` if there are fewer. -/
def lineStartAbove (t : Text) : (start lines : Nat) → Nat
  | 0, _ => 0
  | start, 0 => start
  | start + 1, lines + 1 => t.lineStartAbove (t.lineStart start) lines

/-! ### Where a line starts -/

theorem IsLineStart.le_size {t : Text} {i : Nat} (h : t.IsLineStart i) : i ≤ t.size := by
  obtain rfl | ⟨j, rfl, hfeed⟩ := h
  · exact Nat.zero_le _
  · exact (Array.getElem?_eq_some_iff.mp hfeed).1

private theorem lineStartBelow_le (t : Text) :
    ∀ (n : Nat) (h : n ≤ t.size), lineStartBelow t n h ≤ n
  | 0, _ => Nat.le_refl 0
  | n + 1, h => by
    unfold lineStartBelow
    split
    · exact Nat.le_refl _
    · exact Nat.le_succ_of_le (lineStartBelow_le t n _)

private theorem isLineStart_lineStartBelow (t : Text) :
    ∀ (n : Nat) (h : n ≤ t.size), t.IsLineStart (lineStartBelow t n h)
  | 0, _ => .inl rfl
  | n + 1, h => by
    unfold lineStartBelow
    split
    · next hn => exact .inr ⟨n, rfl, by rw [Array.getElem?_eq_getElem h, hn]⟩
    · exact isLineStart_lineStartBelow t n _

private theorem ne_lineFeed_of_lineStartBelow_le (t : Text) {i : Nat} :
    ∀ (n : Nat) (h : n ≤ t.size), lineStartBelow t n h ≤ i → i < n → t[i]? ≠ some '\n'
  | 0, _, _, hi => absurd hi (Nat.not_lt_zero i)
  | n + 1, h, hle, hi => by
    unfold lineStartBelow at hle
    split at hle
    · omega
    · next hn =>
      rcases Nat.lt_succ_iff_lt_or_eq.mp hi with hlt | rfl
      · exact ne_lineFeed_of_lineStartBelow_le t n _ hle hlt
      · rw [Array.getElem?_eq_getElem h]
        exact fun heq => hn (Option.some.inj heq)

theorem lineStart_le (t : Text) (offset : Nat) : t.lineStart offset ≤ min offset t.size :=
  lineStartBelow_le t _ _

theorem lineStart_le_self (t : Text) (offset : Nat) : t.lineStart offset ≤ offset :=
  Nat.le_trans (t.lineStart_le offset) (Nat.min_le_left ..)

theorem isLineStart_lineStart (t : Text) (offset : Nat) : t.IsLineStart (t.lineStart offset) :=
  isLineStart_lineStartBelow t _ _

theorem ne_lineFeed_of_lineStart_le {t : Text} {offset i : Nat}
    (hle : t.lineStart offset ≤ i) (hi : i < min offset t.size) : t[i]? ≠ some '\n' :=
  ne_lineFeed_of_lineStartBelow_le t _ _ hle hi

/-- An offset lies on the line of the character before it, unless that ends it. -/
theorem lineStart_succ_of_ne {t : Text} {i : Nat} {c : Char} (h : t[i]? = some c) (hc : c ≠ '\n') :
    t.lineStart (i + 1) = t.lineStart i := by
  obtain ⟨hlt, rfl⟩ := Array.getElem?_eq_some_iff.mp h
  have hi : min i t.size = i := Nat.min_eq_left (Nat.le_of_lt hlt)
  have hi' : min (i + 1) t.size = i + 1 := Nat.min_eq_left hlt
  simp only [lineStart, hi, hi', lineStartBelow, hc, ↓reduceIte]

/-- Further down in the text, a line starts no earlier. -/
theorem lineStart_mono (t : Text) {i j : Nat} (hij : i ≤ j) : t.lineStart i ≤ t.lineStart j := by
  apply Nat.le_of_not_lt
  intro hlt
  have hle := t.lineStart_le i
  obtain hzero | ⟨k, hk, hfeed⟩ := t.isLineStart_lineStart i
  · omega
  · exact ne_lineFeed_of_lineStart_le (show t.lineStart j ≤ k by omega) (by omega) hfeed

/-! ### Walking up -/

@[simp] theorem lineStartAbove_start_zero (t : Text) (lines : Nat) :
    t.lineStartAbove 0 lines = 0 := by
  simp [lineStartAbove]

@[simp] theorem lineStartAbove_zero (t : Text) (start : Nat) :
    t.lineStartAbove start 0 = start := by
  cases start <;> simp [lineStartAbove]

theorem lineStartAbove_le (t : Text) (start lines : Nat) :
    t.lineStartAbove start lines ≤ start := by
  induction lines generalizing start with
  | zero => simp
  | succ n ih =>
    cases start with
    | zero => simp
    | succ s =>
      have := t.lineStart_le s
      have := ih (t.lineStart s)
      simp only [lineStartAbove]
      omega

/-- Walking up some lines and then some more is walking up all of them. -/
theorem lineStartAbove_add (t : Text) (start m n : Nat) :
    t.lineStartAbove (t.lineStartAbove start m) n = t.lineStartAbove start (m + n) := by
  induction m generalizing start with
  | zero => simp
  | succ m ih =>
    cases start with
    | zero => simp
    | succ s =>
      rw [Nat.add_right_comm]
      exact ih (t.lineStart s)

theorem isLineStart_lineStartAbove {t : Text} {start : Nat} (lines : Nat)
    (h : t.IsLineStart start) : t.IsLineStart (t.lineStartAbove start lines) := by
  induction lines generalizing start with
  | zero => simpa using h
  | succ n ih =>
    cases start with
    | zero => simpa using h
    | succ s => exact ih (t.isLineStart_lineStart s)

/-- Walking up at least one line from a start other than `0` goes strictly up. -/
theorem lineStartAbove_lt (t : Text) {start lines : Nat} (hs : start ≠ 0) (hl : lines ≠ 0) :
    t.lineStartAbove start lines < start := by
  obtain ⟨s, rfl⟩ := Nat.exists_eq_succ_of_ne_zero hs
  obtain ⟨n, rfl⟩ := Nat.exists_eq_succ_of_ne_zero hl
  have := t.lineStart_le s
  have := t.lineStartAbove_le (t.lineStart s) n
  simp only [lineStartAbove]
  omega

end Text

end BracketMatching
